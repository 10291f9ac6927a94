import TokenFoundry.Services.UsageCaptureImport
import Mathlib.Data.List.Induction

/-!
# Importing an event again

The overlap of the watermark imports recent events again on every run.  That is free as long as the
document of an event is the one it has been before; but two things come from outside of the event:
the clock, where the event has no time of its own, and the markup of its model, which may have been
changed since, or not been read.

`reimport_keeps` says that a store stays what it is when every import that meets the same document
agrees with the new one on both.  A markup table that cannot be read makes the difference
(`reimport_rewrites`).
-/

set_option autoImplicit false

namespace TokenFoundry

namespace UsageIngest

variable {K : Type}

/-- A document that is there is not changed by its upsert. -/
lemma put_of_mem {d : Document K} {ds : List (Document K)} (hnodup : (ds.map key).Nodup)
    (h : d ∈ ds) : put d ds = ds := by
  induction ds with
  | nil => simp at h
  | cons x xs ih =>
      simp only [List.map_cons, List.nodup_cons] at hnodup
      unfold put
      by_cases hkey : key x = key d
      · rw [if_pos hkey]
        rcases List.mem_cons.1 h with rfl | hd
        · rfl
        · exact absurd (List.mem_map_of_mem hd) (hkey ▸ hnodup.1)
      · rw [if_neg hkey]
        rcases List.mem_cons.1 h with rfl | hd
        · exact absurd rfl hkey
        · rw [ih hnodup.2 hd]

lemma mem_put_self (d : Document K) (ds : List (Document K)) : d ∈ put d ds := by
  induction ds with
  | nil => simp [put]
  | cons x xs ih =>
      unfold put
      split_ifs
      · simp
      · exact List.mem_cons_of_mem x ih

/-- A document stays unless another one with its key is upserted. -/
lemma mem_put_of_mem {d x : Document K} {ds : List (Document K)} (h : x ∈ ds)
    (hx : key x = key d → x = d) : x ∈ put d ds := by
  induction ds with
  | nil => simp at h
  | cons y ys ih =>
      unfold put
      split_ifs with hkey
      · rcases List.mem_cons.1 h with rfl | hmem
        · simp [hx hkey]
        · exact List.mem_cons_of_mem d hmem
      · rcases List.mem_cons.1 h with rfl | hmem
        · simp
        · exact List.mem_cons_of_mem y (ih hmem)

/-- Upserting some documents, of which every key has one, adds exactly them. -/
lemma mem_foldl_upsert {docs : List (Document K)} {c : Container K}
    (hkeys : ∀ d ∈ docs, ∀ d', d' ∈ c.docs ∨ d' ∈ docs → key d = key d' → d = d') (x : Document K) :
    x ∈ (docs.foldl Container.upsert c).docs ↔ x ∈ c.docs ∨ x ∈ docs := by
  induction docs generalizing c with
  | nil => simp
  | cons d docs ih =>
      have hd := hkeys d List.mem_cons_self
      have hmem : ∀ y, y ∈ (c.upsert d).docs ↔ y = d ∨ y ∈ c.docs := by
        intro y
        constructor
        · exact mem_put
        · rintro (rfl | hy)
          · exact mem_put_self y _
          · exact mem_put_of_mem hy (fun hkey => (hd y (.inl hy) hkey.symm).symm)
      rw [List.foldl_cons, ih, hmem, List.mem_cons]
      · constructor
        · rintro ((h | h) | h)
          · exact .inr (.inl h)
          · exact .inl h
          · exact .inr (.inr h)
        · rintro (h | h | h)
          · exact .inl (.inr h)
          · exact .inl (.inl h)
          · exact .inr h
      · intro e he e' he' hkey
        refine hkeys e (List.mem_cons_of_mem d he) e' ?_ hkey
        rcases he' with he' | he'
        · rcases (hmem e').1 he' with rfl | he'
          · exact .inr List.mem_cons_self
          · exact .inl he'
        · exact .inr (List.mem_cons_of_mem d he')

lemma Container.upsert_of_mem {c : Container K} {d : Document K} (h : d ∈ c.docs) :
    c.upsert d = c := by
  obtain ⟨docs, hnodup⟩ := c
  simp only [Container.upsert, put_of_mem hnodup h]

end UsageIngest

namespace UsageCaptureImport

open Prog.Raising (exec)
open UsageIngest (Document Container key mem_put mem_put_self mem_put_of_mem)

variable {K : Type}

/-! ## The store behind the import -/

/-- What an import meets: the readings of the clock to come, and the container. -/
structure Session (K : Type) where
  clock : ℕ → Datetime
  container : Container K

/-- Every call succeeds; the calls that an import of events does not make change nothing. -/
def store : (o : Call K) → Session K → (importApi K).Reply o × Session K
  | .now, s => (.ok (s.clock 0), { s with clock := fun n => s.clock (n + 1) })
  | .upsert doc, s => (.ok (), { s with container := s.container.upsert doc })
  | .openSession, s => (.ok (), s)
  | .closeSession, s => (.ok (), s)
  | .getPosition, s => (.ok none, s)
  | .readMarkups, s => (.ok [], s)
  | .listBlobs, s => (.ok [], s)
  | .download _, s => (.ok [], s)
  | .putPosition _ _, s => (.ok (), s)
  | .rollback, s => (.ok (), s)

variable [PyFloat K]

/-- The container once a conversion has come out; the clock has been read once for it, whether there
is a document or not. -/
def Session.put (s : Session K) (doc : Except Failure (Option (Document K))) : Session K where
  clock n := s.clock (n + 1)
  container := match doc with
    | .ok (some doc) => s.container.upsert doc
    | _ => s.container

/-- The import of one event upserts its document, and it is the only document that the import
writes. -/
lemma exec_store_importEvent (py : Runtime K) (markups : Markups K) (event : Dict K)
    (s : Session K) :
    exec store (importEvent py markups event) s =
      ((match eventToDocument py event markups (s.clock 0) with
        | .ok doc => .ok doc.isSome
        | .error f => .error (.code f)),
        s.put (eventToDocument py event markups (s.clock 0))) := by
  have hnow : exec store (ask .now : Task K _) s =
      (.ok (s.clock 0), { s with clock := fun n => s.clock (n + 1) }) := rfl
  unfold importEvent
  rw [Prog.Raising.exec_bind_ok _ hnow]
  cases eventToDocument py event markups (s.clock 0) with
  | error f => rfl
  | ok doc => cases doc <;> rfl

/-! ## Imports -/

/-- One import of an event: the markups that have been read for it, and the clock. -/
structure Import (K : Type) where
  event : Dict K
  markups : Markups K
  now : Datetime

/-- The container once an event has been imported, by a run with these markups at this time. -/
def importInto (py : Runtime K) (c : Container K) (i : Import K) : Container K :=
  (exec store (importEvent py i.markups i.event) (Session.mk (fun _ => i.now) c)).2.container

/-- The container once these events have been imported, one after the other. -/
def imported (py : Runtime K) (imports : List (Import K)) : Container K :=
  imports.foldl (importInto py) Container.empty

/-- The document of an import, `none` for an event without a key. -/
def Import.document (py : Runtime K) (i : Import K) : Except Failure (Option (Document K)) :=
  eventToDocument py i.event i.markups i.now

lemma importInto_eq (py : Runtime K) (c : Container K) (i : Import K) :
    importInto py c i = match i.document py with
      | .ok (some doc) => c.upsert doc
      | _ => c := by
  unfold importInto
  rw [exec_store_importEvent]
  rfl

/-- Where the document of an import goes: its id and its partition key. -/
def Import.target (py : Runtime K) (i : Import K) : Option (String × String) :=
  if ! keyed i.event then none
  else match parseTs (Json.get i.event "ts") i.now with
    | .error _ => none
    | .ok ts => some ((subscriptionOf i.event).text py ++ "_" ++ ts.yearMonth,
        (Json.get i.event "request_id").text py)

/-- What a priced event is billed under a table, which is upstream's price with the markup of its
model. -/
def billedUnder (event : Dict K) (markups : Markups K) : Option K :=
  match Json.get event "copilot_usage", markupOf markups (modelOf event) with
  | .dict usage, .ok markup =>
      match Billing.numeral (Json.get usage "total_nano_aiu") with
      | some (.ok nano) =>
          some (PyFloat.round (PyFloat.mul (PyFloat.div nano Billing.nanoAiuPerUsd)
            (PyFloat.add (PyFloat.lit 1) markup)) Billing.usdPlaces)
      | _ => none
  | _, _ => none

/-- Two imports of one event at one time, its own or that of the clock, and for one price. -/
structure Agree (i j : Import K) : Prop where
  event : i.event = j.event
  time : ownTime (Json.get i.event "ts") = none → i.now = j.now
  price : billedUnder i.event i.markups = billedUnder i.event j.markups

section Documents

variable {py : Runtime K}

/-- The price that `compute` looks up is found under both tables, or neither lookup comes out: that
depends on the model alone. -/
lemma markupOf_cases (markups markups' : Markups K) (model : Json K) :
    (∃ m m', markupOf markups model = .ok m ∧ markupOf markups' model = .ok m') ∨
      markupOf markups model = .error .type ∧ markupOf markups' model = .error .type := by
  cases model with
  | list xs => exact .inr ⟨rfl, rfl⟩
  | dict fields => exact .inr ⟨rfl, rfl⟩
  | _ => exact .inl ⟨_, _, rfl, rfl⟩

/-- The cost of an event under a table, priced or not. -/
def costUnder (event : Dict K) (markups : Markups K) :
    Except Failure (Option (Billing.CostBreakdown K)) :=
  markupOf markups (modelOf event) >>= Billing.costFromCopilotUsage (Json.get event "copilot_usage")

/-- The cost of an event depends on the markups by its price only. -/
lemma cost_congr {event : Dict K} {markups markups' : Markups K}
    (h : billedUnder event markups = billedUnder event markups') :
    costUnder event markups = costUnder event markups' := by
  unfold costUnder
  unfold billedUnder at h
  rcases markupOf_cases markups markups' (modelOf event) with ⟨m, m', hm, hm'⟩ | ⟨hm, hm'⟩
  · rw [hm, hm'] at h ⊢
    change Billing.costFromCopilotUsage _ m = Billing.costFromCopilotUsage _ m'
    cases hu : Json.get event "copilot_usage" with
    | dict usage =>
        simp only [hu] at h
        cases hn : Billing.numeral (Json.get usage "total_nano_aiu") with
        | none => simp [Billing.costFromCopilotUsage, hn]
        | some nano =>
            cases nano with
            | error f =>
              simp only [Billing.costFromCopilotUsage, hn]
              rfl
            | ok nano =>
              simp only [hn, Option.some.injEq] at h
              simp only [Billing.costFromCopilotUsage, hn]
              change Except.ok (some (Billing.roundPair _ m _)) =
                Except.ok (some (Billing.roundPair _ m' _))
              simp only [Billing.roundPair, h]
    | _ => rfl
  · rw [hm, hm']

/-- Imports that agree have the same document, since the tokens do not depend on the run and the
time and the cost are what they agree on. -/
lemma Agree.document {i j : Import K} (h : Agree i j) : i.document py = j.document py := by
  obtain ⟨event, markups, now⟩ := i
  obtain ⟨event', markups', now'⟩ := j
  obtain ⟨hevent, htime, hprice⟩ := h
  cases hevent
  have hts : parseTs (Json.get event "ts") now = parseTs (Json.get event "ts") now' := by
    unfold parseTs
    cases hown : ownTime (Json.get event "ts") with
    | none =>
        have hnow : now = now' := htime hown
        rw [hnow]
    | some t => rfl
  have hcompute : compute event markups now = compute event markups' now' := by
    have hsplit : ∀ markups now, compute event markups now = (do
        let ts ← parseTs (Json.get event "ts") now
        let tokens ← tokensOf event
        let cost ← costUnder event markups
        let status ← int (Json.get event "status")
        let totalTok ← int (Json.get event "total_tokens")
        return ⟨ts, tokens, cost, status, totalTok⟩) := by
      intro markups now
      simp only [compute, costUnder, bind_assoc]
    rw [hsplit, hsplit, hts, cost_congr hprice]
  simp only [Import.document, eventToDocument, hcompute]

/-- What a computation that has come out has computed: the time, the tokens and the cost, each by
its own function. -/
lemma compute_ok {event : Dict K} {markups : Markups K} {now : Datetime} {c : Computed K}
    (h : compute event markups now = .ok c) :
    parseTs (Json.get event "ts") now = .ok c.ts ∧ tokensOf event = .ok c.tokens ∧
      costUnder event markups = .ok c.cost := by
  obtain ⟨ts, hts, h⟩ := Outcomes.bind_eq_ok.1 h
  obtain ⟨tokens, htokens, h⟩ := Outcomes.bind_eq_ok.1 h
  obtain ⟨markup, hmarkup, h⟩ := Outcomes.bind_eq_ok.1 h
  obtain ⟨cost, hcost, h⟩ := Outcomes.bind_eq_ok.1 h
  obtain ⟨status, -, h⟩ := Outcomes.bind_eq_ok.1 h
  obtain ⟨totalTok, -, h⟩ := Outcomes.bind_eq_ok.1 h
  cases h
  exact ⟨hts, htokens, Outcomes.bind_eq_ok.2 ⟨markup, hmarkup, hcost⟩⟩

lemma key_document (event : Dict K) (c : Computed K) :
    key (document py event c) = ((subscriptionOf event).text py ++ "_" ++ c.ts.yearMonth,
      (Json.get event "request_id").text py) := rfl

/-- A document is identified by the target of its import. -/
lemma target_eq_key {i : Import K} {doc : Document K} (h : i.document py = .ok (some doc)) :
    i.target py = some (key doc) := by
  unfold Import.document at h
  unfold Import.target
  cases hkeyed : keyed i.event with
  | false =>
      rw [eventToDocument_of_not_keyed py hkeyed] at h
      cases h
  | true =>
      rw [eventToDocument_of_keyed py hkeyed] at h
      cases hc : compute i.event i.markups i.now with
      | error f =>
          rw [hc] at h
          cases h
      | ok c =>
          rw [hc] at h
          cases h
          simp [(compute_ok hc).1, key_document]

/-! ## The container after some imports -/

lemma imported_append (imports : List (Import K)) (i : Import K) :
    imported py (imports ++ [i]) = importInto py (imported py imports) i := by
  simp [imported]

/-- Every import that meets the document of `again`, or is of its event, agrees with it. -/
def Undisputed (py : Runtime K) (imports : List (Import K)) (again : Import K) : Prop :=
  ∀ i ∈ imports,
    i.event = again.event ∨ (i.target py = again.target py ∧ i.target py ≠ none) → Agree i again

/-- Only the document itself has its key, and it is there once its event has been imported. -/
lemma imported_document {imports : List (Import K)} {again : Import K} {doc : Document K}
    (hdoc : again.document py = .ok (some doc)) (hagree : Undisputed py imports again) :
    (∀ d ∈ (imported py imports).docs, key d = key doc → d = doc) ∧
      ((∃ i ∈ imports, i.event = again.event) → doc ∈ (imported py imports).docs) := by
  induction imports using List.reverseRecOn with
  | nil => simp [imported, Container.empty]
  | append_singleton imports i ih =>
      obtain ⟨honly, hthere⟩ := ih (fun j hj => hagree j (List.mem_append_left [i] hj))
      have hown : i.event = again.event → i.document py = .ok (some doc) := fun hevent =>
        (hagree i (by simp) (.inl hevent)).document.trans hdoc
      have hsame : ∀ doc', i.document py = .ok (some doc') → key doc' = key doc → doc' = doc := by
        intro doc' hdoc' hkey
        have htarget : i.target py = again.target py := by
          rw [target_eq_key hdoc', target_eq_key hdoc, hkey]
        have heq : i.document py = again.document py :=
          (hagree i (by simp) (.inr ⟨htarget, by simp [target_eq_key hdoc']⟩)).document
        rw [hdoc', hdoc] at heq
        cases heq
        rfl
      have hseen : (∃ j ∈ imports ++ [i], j.event = again.event) →
          (∃ j ∈ imports, j.event = again.event) ∨ i.event = again.event := by
        simp
      rw [imported_append, importInto_eq]
      cases hdoc' : i.document py with
      | error f =>
          refine ⟨honly, fun h => (hseen h).elim hthere (fun hevent => ?_)⟩
          rw [hown hevent] at hdoc'
          cases hdoc'
      | ok result =>
        cases result with
        | none =>
            refine ⟨honly, fun h => (hseen h).elim hthere (fun hevent => ?_)⟩
            rw [hown hevent] at hdoc'
            cases hdoc'
        | some doc' =>
            constructor
            · intro d hd hkey
              rcases mem_put hd with rfl | hd
              · exact hsame d hdoc' hkey
              · exact honly d hd hkey
            · intro h
              by_cases heq : doc' = doc
              · exact heq ▸ mem_put_self doc' _
              · refine (hseen h).elim (fun hseen => ?_) (fun hevent => ?_)
                · exact mem_put_of_mem (hthere hseen) (fun hkey =>
                    (hsame doc' hdoc' hkey.symm).symm)
                · rw [hown hevent] at hdoc'
                  cases hdoc'
                  exact absurd rfl heq

/-- **Importing an event again.**  When an event is imported once more, and every import before it
that meets its document, or is of the same event, agrees with the new one, the store stays what it
is. -/
theorem reimport_keeps (py : Runtime K) (imports : List (Import K)) (again : Import K)
    (hagree : Undisputed py imports again) (hseen : ∃ i ∈ imports, i.event = again.event) :
    importInto py (imported py imports) again = imported py imports := by
  rw [importInto_eq]
  cases hdoc : again.document py with
  | error f => rfl
  | ok doc =>
    cases doc with
    | none => rfl
    | some doc => exact Container.upsert_of_mem ((imported_document hdoc hagree).2 hseen)

end Documents

/-- A call that upstream prices at one dollar, with a time that can be read. -/
def priced : Dict Float :=
  [("request_id", .str "r1"), ("subscription", .str "k1"), ("model", .str "gpt-4o"),
    ("ts", .str "2026-07-01T00:00:00Z"),
    ("copilot_usage", .dict [("total_nano_aiu", .int 100000000000)])]

/-- It is imported with a markup of a quarter, and billed a dollar and a quarter. -/
def firstImport : Import Float := ⟨priced, [("gpt-4o", 0.25)], ⟨0, ticksLimit_pos⟩⟩

/-- Ten minutes later, the markup is what it has been. -/
theorem reimport_keeps_price :
    importInto .strict (imported .strict [firstImport])
        { firstImport with now := ⟨600000000, by decide⟩ } = imported .strict [firstImport] := by
  have hagree : Agree firstImport { firstImport with now := ⟨600000000, by decide⟩ } := by
    refine ⟨rfl, fun hnone => ?_, rfl⟩
    have hown : ownTime (Json.get firstImport.event "ts") ≠ none := by decide +kernel
    exact absurd hnone hown
  refine reimport_keeps .strict [firstImport] _ (fun i hi _ => ?_) ⟨firstImport, by simp, rfl⟩
  cases List.mem_singleton.1 hi
  exact hagree

lemma tenMinutes_inRange : 600000000 < ticksLimit := by decide

/-- Ten minutes later, the table of the markups cannot be read. -/
def laterImport : Import Float := ⟨priced, [], ⟨600000000, tenMinutes_inRange⟩⟩

/-- What the documents of a container bill, one amount for each document. -/
def billedAmounts (c : Container Float) : List Float :=
  c.docs.filterMap (fun d => match Json.get d "billed_usd" with
    | .float x => some x
    | _ => none)

/-- A call that has been imported is imported again, and billed less. -/
theorem reimport_rewrites :
    (billedAmounts (imported .strict [firstImport]) = [1.25] ∧
      billedAmounts (importInto .strict (imported .strict [firstImport]) laterImport) = [1]) ∧
    ¬ ∀ (py : Runtime Float) (imports : List (Import Float)) (again : Import Float),
      (∃ i ∈ imports, i.event = again.event) →
        importInto py (imported py imports) again = imported py imports := by
  have hfirst : billedAmounts (imported .strict [firstImport]) = [1.25] := by decide +kernel
  have hlater : billedAmounts (importInto .strict (imported .strict [firstImport]) laterImport) =
      [1] := by decide +kernel
  refine ⟨⟨hfirst, hlater⟩, fun h => ?_⟩
  have hkeeps := h .strict [firstImport] laterImport ⟨firstImport, by simp, rfl⟩
  rw [hkeeps, hfirst] at hlater
  exact absurd hlater (by decide +kernel)

end UsageCaptureImport
end TokenFoundry
