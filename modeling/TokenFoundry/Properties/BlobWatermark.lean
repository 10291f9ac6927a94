import TokenFoundry.Properties.PoisonEvents

/-!
# The watermark loses no blob

Several replicas run the import at the same time.  They share one watermark, which each of them
reads at the start of a run and writes at its end, so that it can move in either direction; a run
may stop anywhere, because a call fails or because the replica does.

Still, what lies the overlap or more behind the stored watermark has been imported
(`no_lost_blob`).  The invariant is that the stored time is *safe*: some visible blob has it, and
every blob that is older by the overlap is in the store.  It goes on being safe whatever the others
do, because a blob does not appear behind one that is newer by the overlap.
-/

set_option autoImplicit false

namespace TokenFoundry
namespace UsageCaptureImport
namespace Watermark

open UsageIngest (Document)

variable {K : Type} [PyFloat K]

/-! ## The replicas and what they share -/

/-- What the importer reads and writes: the container of the capture, the row of the watermark, and
the documents. -/
structure World (K : Type) where
  /-- The blobs that are visible. -/
  blobs : List Blob
  /-- The row of the watermark. -/
  position : Option String
  /-- The documents that have been upserted. -/
  upserts : List (Document K)

/-- What the outside decides about a call: that it is served, or which rows, listing or time it
gives. -/
inductive Pick (K : Type)
  | served
  | markups (rows : List (String × Option K))
  /-- A listing in some order. -/
  | listing (blobs : List Blob)
  | clock (now : Datetime)

omit [PyFloat K] in
/-- How the calls of a run are served; what a blob holds does not change. -/
def serve (content : String → List (AvroRecord K)) (w : World K) :
    (o : Call K) → Pick K → Option ((importApi K).Reply o × World K)
  | .openSession, .served => some (.ok (), w)
  | .closeSession, .served => some (.ok (), w)
  | .getPosition, .served => some (.ok w.position, w)
  | .readMarkups, .markups rows => some (.ok rows, w)
  | .listBlobs, .listing blobs => if blobs.Perm w.blobs then some (.ok blobs, w) else none
  | .download name, .served => some (.ok (content name), w)
  | .now, .clock now => some (.ok now, w)
  | .upsert doc, .served => some (.ok (), { w with upserts := w.upserts ++ [doc] })
  | .putPosition isNew position, .served =>
      -- A row that is there cannot be added, and one that is not there cannot be changed.
      if isNew = w.position.isNone then some (.ok (), { w with position := some position })
      else some (.error .external, w)
  | .rollback, .served => some (.ok (), w)
  | _, _ => none

/-- A blob becomes visible, unless one that is newer by the overlap has done so already. -/
inductive Appears (w : World K) : World K → Prop
  | mk (before after : List Blob) (b : Blob) (hblobs : w.blobs = before ++ after)
      (hnewer : ∀ b' ∈ w.blobs, (b'.lastModified.ticks : ℤ) < b.lastModified.ticks + overlap) :
      Appears w { w with blobs := before ++ b :: after }

/-- Any call may fail, before its effect or after it. -/
def env (content : String → List (AvroRecord K)) (ι : Type) : Env (importApi K) ι (World K) :=
  .faulty (fun _ => serve content) (fun _ _ => true) (fun _ _ => true) Appears

/-- Runs of any number of replicas, before any of them has made a call. -/
def start {ι : Type} (py : Runtime K) (w : World K) :
    Config (importApi K) ι (World K) (Except Fault Stats) :=
  ⟨w, fun _ => (runOnce py true).run⟩

/-! ## Safe times -/

/-- The event has been converted and upserted, by some run with its markups and its clock. -/
def World.Imported (py : Runtime K) (w : World K) (event : Dict K) : Prop :=
  ∃ markups now doc, eventToDocument py event markups now = .ok (some doc) ∧ doc ∈ w.upserts

/-- Every event with a request id of a blob has been imported. -/
def World.Done (py : Runtime K) (content : String → List (AvroRecord K)) (w : World K) (b : Blob) :
    Prop :=
  ∀ event ∈ decodeAvro (content b.name), keyed event = true → w.Imported py event

/-- A blob has this time, and every blob that is older by the overlap has been imported. -/
structure Safe (py : Runtime K) (content : String → List (AvroRecord K)) (t : Datetime)
    (w : World K) : Prop where
  anchor : ∃ b ∈ w.blobs, b.lastModified = t
  done : ∀ b ∈ w.blobs, (b.lastModified.ticks : ℤ) + overlap ≤ t.ticks → w.Done py content b

omit [PyFloat K] in
/-- What the others may do: documents are added, and blobs as they may appear. -/
structure Later (w w' : World K) : Prop where
  blobs : w.blobs ⊆ w'.blobs
  upserts : w.upserts ⊆ w'.upserts
  appeared : ∀ b ∈ w'.blobs, b ∈ w.blobs ∨
    ∀ b' ∈ w.blobs, (b'.lastModified.ticks : ℤ) < b.lastModified.ticks + overlap

section Later

omit [PyFloat K]

lemma Later.refl (w : World K) : Later w w :=
  ⟨List.Subset.refl _, List.Subset.refl _, fun _ hb => .inl hb⟩

lemma Later.trans {w₁ w₂ w₃ : World K} (h₁ : Later w₁ w₂) (h₂ : Later w₂ w₃) : Later w₁ w₃ := by
  refine ⟨List.Subset.trans h₁.blobs h₂.blobs, List.Subset.trans h₁.upserts h₂.upserts, ?_⟩
  intro b hb
  rcases h₂.appeared b hb with hold | hnew
  · exact h₁.appeared b hold
  · exact .inr (fun b' hb' => hnew b' (h₁.blobs hb'))

lemma Appears.later {w w' : World K} (h : Appears w w') : Later w w' := by
  obtain ⟨before, after, b, hblobs, hnewer⟩ := h
  refine ⟨fun b' hb' => ?_, List.Subset.refl _, fun b' hb' => ?_⟩
  · rw [hblobs] at hb'
    simp only [List.mem_append, List.mem_cons] at hb' ⊢
    tauto
  · rw [hblobs]
    simp only [List.mem_append, List.mem_cons] at hb' ⊢
    rcases hb' with hb' | rfl | hb'
    · exact .inl (.inl hb')
    · exact .inr (fun b'' hb'' => hnewer b'' (by rw [hblobs]; simpa using hb''))
    · exact .inl (.inr hb')

end Later

section Facts

variable {py : Runtime K} {content : String → List (AvroRecord K)}

lemma World.Imported.later {w w' : World K} {event : Dict K} (h : w.Imported py event)
    (hl : Later w w') : w'.Imported py event := by
  obtain ⟨markups, now, doc, hdoc, hmem⟩ := h
  exact ⟨markups, now, doc, hdoc, hl.upserts hmem⟩

lemma World.Done.later {w w' : World K} {b : Blob} (h : w.Done py content b) (hl : Later w w') :
    w'.Done py content b := fun event he hk => (h event he hk).later hl

/-- A safe time goes on being safe: documents are only added, and new blobs come with later
times. -/
lemma Safe.later {t : Datetime} {w w' : World K} (h : Safe py content t w) (hl : Later w w') :
    Safe py content t w' := by
  obtain ⟨anchor, hanchor, htime⟩ := h.anchor
  refine ⟨⟨anchor, hl.blobs hanchor, htime⟩, fun b hb hold => ?_⟩
  rcases hl.appeared b hb with hthere | hnew
  · exact (h.done b hthere hold).later hl
  · have hlt := hnew anchor hanchor
    rw [htime] at hlt
    omega

end Facts

/-! ## The discipline of the replicas -/

/-- The stored time is safe: every blob that is older than the overlap before it has been
imported. -/
def Inv (py : Runtime K) (content : String → List (AvroRecord K)) (w : World K) : Prop :=
  ∀ p ∈ w.position, ∃ d : Datetime, p = d.isoformat ∧ Safe py content d w

def discipline (py : Runtime K) (content : String → List (AvroRecord K)) (ι : Type) :
    Discipline (env content ι) where
  inv := Inv py content
  rely _ := Later
  busy _ _ := True
  rely_refl _ := Later.refl
  rely_trans _ := Later.trans
  drift_inv hinv happears p hp := by
    have hsame : _ := happears
    obtain ⟨before, after, b, hblobs, hnewer⟩ := hsame
    obtain ⟨d, hd, hsafe⟩ := hinv p hp
    exact ⟨d, hd, hsafe.later happears.later⟩
  drift_rely _ _ := Appears.later

/-- A fact that the others keep, whatever they do. -/
def Kept (P : World K → Prop) : Prop := ∀ w w', Later w w' → P w → P w'

omit [PyFloat K] in
/-- What an answer says of the world at the moment it was given. -/
def Answered (content : String → List (AvroRecord K)) : (o : Call K) → o.Answer → World K → Prop
  | .getPosition, position, w => position = w.position
  | .listBlobs, blobs, w => blobs.Perm w.blobs
  | .download name, records, _ => records = content name
  | .upsert doc, _, w => doc ∈ w.upserts
  | _, _, _ => True

/-- The call does not write the watermark, as only one call does. -/
def keepsPosition : Call K → Bool
  | .putPosition _ _ => false
  | _ => true

omit [PyFloat K] in
lemma serve_later {content : String → List (AvroRecord K)} {w w' : World K} {o : Call K}
    {x : Pick K} {r : (importApi K).Reply o} (ho : keepsPosition o = true)
    (h : serve content w o x = some (r, w')) :
    Later w w' ∧ w'.position = w.position ∧ ∀ a, r = .ok a → Answered content o a w' := by
  cases o with
  | putPosition isNew position => cases ho
  | upsert doc =>
      cases x <;> simp only [serve, Option.some.injEq, Prod.mk.injEq, reduceCtorEq] at h
      obtain ⟨-, rfl⟩ := h
      refine ⟨⟨List.Subset.refl _, List.subset_append_left _ _, fun _ hb => .inl hb⟩, rfl, ?_⟩
      intro a _
      simp [Answered]
  | listBlobs =>
      cases x <;> simp only [serve, reduceCtorEq] at h
      split_ifs at h with hperm
      cases h
      refine ⟨Later.refl w, rfl, ?_⟩
      rintro a ⟨⟩
      exact hperm
  | _ =>
      cases x <;> simp only [serve, Option.some.injEq, Prod.mk.injEq, reduceCtorEq] at h
      obtain ⟨rfl, rfl⟩ := h
      refine ⟨Later.refl w, rfl, ?_⟩
      rintro a ⟨⟩
      simp [Answered]

section Rules

variable {ι : Type} {py : Runtime K} {content : String → List (AvroRecord K)} {i : ι}
variable {P : World K → Prop} {w : World K}

/-- A call keeps what the others keep, and its answer is true. -/
lemma wpE_call {o : Call K} (ho : keepsPosition o = true) (hP : Kept P) (hw : P w) :
    (discipline py content ι).wpE anyStep i (ask o)
      (fun a w' => P w' ∧ Answered content o a w' ∧ Inv py content w') (fun _ w' => P w') w := by
  refine Discipline.wpE_ask (fun w₁ hlater hinv => ⟨trivial, fun x r w₂ hact _ => ?_⟩)
  have hP₁ := hP w w₁ hlater hw
  rcases Env.faulty_act hact with ⟨x', r₀, hserve, hr⟩ | ⟨rfl, e, -, rfl⟩
  · obtain ⟨hlater₂, hposition, hanswer⟩ := serve_later ho hserve
    have hinv₂ : Inv py content w₂ := by
      intro p hp
      rw [hposition] at hp
      obtain ⟨d, hd, hsafe⟩ := hinv p hp
      exact ⟨d, hd, hsafe.later hlater₂⟩
    have hP₂ := hP w₁ w₂ hlater₂ hP₁
    refine ⟨hinv₂, fun _ _ => hlater₂, fun a ha => ?_, fun _ _ => hP₂⟩
    rcases hr with rfl | ⟨e, -, rfl⟩
    · exact ⟨hP₂, hanswer a ha, hinv₂⟩
    · cases ha
  · refine ⟨hinv, fun _ _ => Later.refl _, ?_, fun _ _ => hP₁⟩
    rintro a ⟨⟩

/-- The watermark is only moved to a safe time, which is what the invariant asks for. -/
lemma wpE_put {d : Datetime} (isNew : Bool) (hsafe : Safe py content d w) :
    (discipline py content ι).wpE anyStep i (ask (.putPosition isNew d.isoformat))
      (fun _ _ => True) (fun _ _ => True) w := by
  refine Discipline.wpE_ask (fun w₁ hlater hinv => ⟨trivial, fun x r w₂ hact _ => ?_⟩)
  have hsafe₁ := hsafe.later hlater
  rcases Env.faulty_act hact with ⟨x', r₀, hserve, -⟩ | ⟨rfl, e, -, -⟩
  · cases x' <;> simp only [serve, reduceCtorEq] at hserve
    split_ifs at hserve
    · cases hserve
      refine ⟨?_, fun _ _ => ⟨List.Subset.refl _, List.Subset.refl _, fun _ hb => .inl hb⟩,
        fun _ _ => trivial, fun _ _ => trivial⟩
      rintro p ⟨⟩
      exact ⟨d, rfl, hsafe₁.anchor, hsafe₁.done⟩
    · cases hserve
      exact ⟨hinv, fun _ _ => Later.refl _, fun _ _ => trivial, fun _ _ => trivial⟩
  · exact ⟨hinv, fun _ _ => Later.refl _, fun _ _ => trivial, fun _ _ => trivial⟩

/-- What an attempt keeps in both cases, whether its program returns or raises. -/
lemma wpE_attempt {α : Type} {p : Task K α} {Q : Option α → World K → Prop}
    {X : Fault → World K → Prop}
    (h : (discipline py content ι).wpE anyStep i p (fun a w' => Q (some a) w')
      (fun _ w' => Q none w') w) :
    (discipline py content ι).wpE anyStep i (attempt p) Q X w :=
  (Discipline.wpE_tryCatch _ _).2 ((Discipline.wpE_bind _ _).2 h)

lemma wpE_lift {α : Type} {x : Except Failure α} {Q : α → World K → Prop}
    {X : Fault → World K → Prop} (hok : ∀ a, x = .ok a → Q a w)
    (herror : ∀ f, x = .error f → X (.code f) w) :
    (discipline py content ι).wpE anyStep i (lift x) Q X w := by
  cases x with
  | ok a => exact hok a rfl
  | error f => exact herror f rfl

/-- A session is opened and closed around a program; neither is about the blobs. -/
lemma wpE_withSession {α : Type} {p : Task K α} {Q : α → World K → Prop} (hP : Kept P) (hw : P w)
    (hQ : ∀ a, Kept (Q a))
    (h : ∀ w', P w' → (discipline py content ι).wpE anyStep i p Q (fun _ _ => True) w') :
    (discipline py content ι).wpE anyStep i (withSession p) Q (fun _ _ => True) w := by
  have hclose : ∀ (Q' : World K → Prop) (w' : World K), Kept Q' → Q' w' →
      (discipline py content ι).wpE anyStep i (ask .closeSession) (fun _ w'' => Q' w'')
        (fun _ _ => True) w' := fun Q' w' hkept hw' =>
    Discipline.wpE_mono (fun _ _ h => h.1) (fun _ _ _ => trivial) (wpE_call rfl hkept hw')
  unfold withSession
  refine (Discipline.wpE_bind _ _).2 (Discipline.wpE_mono (fun _ w' h' => ?_) (fun _ _ _ => trivial)
    (wpE_call rfl hP hw))
  refine Discipline.wpE_tryFinally (Discipline.wpE_mono (fun a w'' ha => ?_) (fun _ w'' _ => ?_)
    (h w' h'.1))
  · exact hclose (Q a) w'' (hQ a) ha
  · exact hclose (fun _ => True) w'' (fun _ _ _ h => h) trivial

/-! ## The loops -/

/-- One event of a blob: if the loop goes on after it, it has been upserted or has no request id. -/
lemma wpE_importEvent (markups : Markups K) (event : Dict K) (hP : Kept P) (hw : P w) :
    (discipline py content ι).wpE anyStep i (importEvent py markups event)
      (fun _ w' => P w' ∧ (keyed event = true → w'.Imported py event)) (fun _ w' => P w') w := by
  unfold importEvent
  refine Discipline.wpE_then (wpE_call rfl hP hw) (fun now w' h => ?_)
  refine (Discipline.wpE_bind _ _).2 (wpE_lift (fun doc hdoc => ?_) (fun _ _ => h.1))
  cases doc with
  | none =>
      refine ⟨h.1, fun hkeyed => ?_⟩
      rw [eventToDocument_of_keyed py hkeyed] at hdoc
      cases hc : compute event markups now with
      | error f =>
          rw [hc] at hdoc
          cases hdoc
      | ok c =>
          rw [hc] at hdoc
          cases hdoc
  | some doc =>
      refine (Discipline.wpE_bind _ _).2
        (Discipline.wpE_mono (fun _ w'' h' => ?_) (fun _ _ h' => h')
        (wpE_call rfl hP h.1))
      exact ⟨h'.1, fun _ => ⟨markups, now, doc, hdoc, h'.2.1⟩⟩

/-- The events of a blob: if the loop comes to its end, all of them have been imported. -/
lemma wpE_importEvents (markups : Markups K) (events : List (Dict K)) (stats : Stats) (hP : Kept P)
    (hw : P w) :
    (discipline py content ι).wpE anyStep i (importEvents py markups events stats)
      (fun r w' => P w' ∧ (r.2 = true → ∀ e ∈ events, keyed e = true → w'.Imported py e))
      (fun _ _ => True) w := by
  induction events generalizing stats w P with
  | nil => exact ⟨hw, by simp⟩
  | cons event events ih =>
      have hkept : Kept (fun w' => P w' ∧ (keyed event = true → w'.Imported py event)) :=
        fun w₁ w₂ hl h => ⟨hP w₁ w₂ hl h.1, fun hk => (h.2 hk).later hl⟩
      have hgo : ∀ (stats : Stats) (w' : World K),
          (P w' ∧ (keyed event = true → w'.Imported py event)) →
          (discipline py content ι).wpE anyStep i (importEvents py markups events stats)
            (fun r w' => P w' ∧
              (r.2 = true → ∀ e ∈ event :: events, keyed e = true → w'.Imported py e))
            (fun _ _ => True) w' := by
        intro stats w' h
        refine Discipline.wpE_mono (fun r w'' h' => ⟨h'.1.1, fun hend e he => ?_⟩)
          (fun _ _ h' => h') (ih stats hkept h)
        rcases List.mem_cons.1 he with rfl | he
        · exact h'.1.2
        · exact h'.2 hend e he
      unfold importEvents
      refine (Discipline.wpE_bind _ _).2 (wpE_attempt (Discipline.wpE_mono (fun written w' h => ?_)
        (fun _ w' h => ?_) (wpE_importEvent markups event hP hw)))
      · cases written with
        | true => exact hgo _ w' h
        | false => exact hgo _ w' h
      · exact ⟨h, by simp⟩

/-! ### The blobs of a run -/

/-- The blobs that a run still has before it: sorted, and what is older than one of them by the
overlap has been imported or is among them. -/
structure Ahead (py : Runtime K) (content : String → List (AvroRecord K)) (left : List Blob)
    (w : World K) : Prop where
  visible : left ⊆ w.blobs
  sorted : left.Pairwise Blob.NotLater
  behind : ∀ b ∈ left, ∀ b' ∈ w.blobs,
    (b'.lastModified.ticks : ℤ) + overlap ≤ b.lastModified.ticks → w.Done py content b' ∨ b' ∈ left

lemma Ahead.later {left : List Blob} {w' : World K} (h : Ahead py content left w)
    (hl : Later w w') : Ahead py content left w' := by
  refine ⟨List.Subset.trans h.visible hl.blobs, h.sorted, fun b hb b' hb' hold => ?_⟩
  rcases hl.appeared b' hb' with hthere | hnew
  · exact (h.behind b hb b' hthere hold).imp (fun hdone => hdone.later hl) id
  · have hlt := hnew b (h.visible hb)
    omega

/-- The time of the next blob is safe: what is older by the overlap cannot come after it. -/
lemma Ahead.safe {b : Blob} {left : List Blob} (h : Ahead py content (b :: left) w) :
    Safe py content b.lastModified w := by
  refine ⟨⟨b, h.visible List.mem_cons_self, rfl⟩, fun b' hb' hold => ?_⟩
  have hfirst := (List.pairwise_cons.1 h.sorted).1
  rcases h.behind b List.mem_cons_self b' hb' hold with hdone | hmem
  · exact hdone
  · have hle : b.lastModified.ticks ≤ b'.lastModified.ticks := by
      rcases List.mem_cons.1 hmem with rfl | hmem
      · exact Nat.le_refl _
      · exact hfirst b' hmem
    simp only [overlap] at hold
    omega

lemma Ahead.next {b : Blob} {left : List Blob} (h : Ahead py content (b :: left) w)
    (hdone : w.Done py content b) : Ahead py content left w := by
  refine ⟨fun b' hb' => h.visible (List.mem_cons_of_mem b hb'), (List.pairwise_cons.1 h.sorted).2,
    fun b₁ hb₁ b' hb' hold => ?_⟩
  rcases h.behind b₁ (List.mem_cons_of_mem b hb₁) b' hb' hold with hdone' | hmem
  · exact .inl hdone'
  · rcases List.mem_cons.1 hmem with rfl | hmem
    · exact .inl hdone
    · exact .inr hmem

/-- The loop over the blobs reaches safe times only: the position moves to a blob when it and those
before it are imported. -/
lemma wpE_importBlobs (watermark : Option Stamp) (markups : Markups K) (blobs : List Blob)
    (run : Run) (hahead : Ahead py content blobs w)
    (hreached : ∀ r ∈ run.reached, Safe py content r w) :
    (discipline py content ι).wpE anyStep i (importBlobs py watermark markups blobs run)
      (fun run' w' => ∀ r ∈ run'.reached, Safe py content r w') (fun _ _ => True) w := by
  induction blobs generalizing run w with
  | nil => exact hreached
  | cons blob blobs ih =>
      have hkept : Kept (fun w' => Ahead py content (blob :: blobs) w' ∧
          ∀ r ∈ run.reached, Safe py content r w') :=
        fun w₁ w₂ hl h => ⟨h.1.later hl, fun r hr => (h.2 r hr).later hl⟩
      unfold importBlobs
      refine (Discipline.wpE_bind _ _).2 (wpE_attempt (Discipline.wpE_mono (fun records w₁ h₁ => ?_)
        (fun _ w₁ h₁ => h₁.2) (wpE_call rfl hkept ⟨hahead, hreached⟩)))
      obtain ⟨h₁, rfl, -⟩ := h₁
      dsimp only
      refine Discipline.wpE_then (wpE_importEvents markups _ _ hkept h₁) (fun r w₂ h₂ => ?_)
      obtain ⟨stats, finished⟩ := r
      obtain ⟨⟨hahead₂, hreached₂⟩, hdone⟩ := h₂
      dsimp only
      cases finished with
      | false => exact hreached₂
      | true =>
          have hnext : Ahead py content blobs w₂ := hahead₂.next (hdone rfl)
          simp only [if_true]
          cases advances watermark run.reached blob.lastModified with
          | error f => exact hreached₂
          | ok moves =>
              cases moves with
              | false => exact ih _ hnext hreached₂
              | true =>
                  refine ih _ hnext ?_
                  rintro r ⟨⟩
                  exact hahead₂.safe

lemma wpE_writeWatermark {d : Datetime} (hsafe : Safe py content d w) :
    (discipline py content ι).wpE anyStep i (writeWatermark d) (fun _ _ => True)
      (fun _ _ => True) w := by
  have hkept : Kept (Safe py content d) := fun _ _ hl h => h.later hl
  have hrollback : ∀ w' : World K, (discipline py content ι).wpE anyStep i (ask .rollback)
      (fun _ _ => True) (fun _ _ => True) w' := fun w' =>
    Discipline.wpE_mono (fun _ _ _ => trivial) (fun _ _ _ => trivial)
      (wpE_call (P := fun _ => True) rfl (fun _ _ _ h => h) trivial)
  unfold writeWatermark
  refine wpE_withSession hkept hsafe (fun _ _ _ _ h => h) (fun w₁ hsafe₁ => ?_)
  refine (Discipline.wpE_tryCatch _ _).2 ((Discipline.wpE_bind _ _).2 (Discipline.wpE_mono
    (fun row w' h => ?_) (fun _ w' _ => hrollback w') (wpE_call rfl hkept hsafe₁)))
  exact Discipline.wpE_mono (fun _ _ h => h) (fun _ w' _ => hrollback w') (wpE_put _ h.1)

/-! ### The selection of a run -/

/-- What a run knows of the watermark that it has read. -/
def Known (py : Runtime K) (content : String → List (AvroRecord K)) (watermark : Option Stamp)
    (w : World K) : Prop :=
  ∀ s ∈ watermark, ∃ d, s = ⟨d, some 0⟩ ∧ Safe py content d w

lemma known_of_inv (hinv : Inv py content w) : Known py content (parsePosition w.position) w := by
  intro s hs
  cases hposition : w.position with
  | none =>
      rw [hposition] at hs
      cases hs
  | some p =>
      obtain ⟨d, rfl, hsafe⟩ := hinv p hposition
      rw [hposition, parsePosition_isoformat] at hs
      cases hs
      exact ⟨d, rfl, hsafe⟩

lemma wantedBlobs_eq {since : Option Stamp} {blobs kept : List Blob}
    (h : wantedBlobs since blobs = .ok kept) :
    kept = blobs.filter (fun b => wanted since b = .ok true) := by
  induction blobs generalizing kept with
  | nil =>
      cases h
      rfl
  | cons x xs ih =>
      obtain ⟨keep, hkeep, h⟩ := Outcomes.bind_eq_ok.1 h
      obtain ⟨rest, hrest, h⟩ := Outcomes.bind_eq_ok.1 h
      cases h
      rw [ih hrest]
      cases keep <;> simp [hkeep]

lemma mem_wantedBlobs {since : Option Stamp} {blobs kept : List Blob}
    (h : wantedBlobs since blobs = .ok kept) (b : Blob) :
    b ∈ kept ↔ b ∈ blobs ∧ wanted since b = .ok true := by
  rw [wantedBlobs_eq h, List.mem_filter, decide_eq_true_eq]

instance : Std.Total Blob.NotLater :=
  ⟨fun a b => Nat.le_total a.lastModified.ticks b.lastModified.ticks⟩

instance : IsTrans Blob Blob.NotLater := ⟨fun _ _ _ => Nat.le_trans⟩

/-- What a run does not list has been imported, where it is older than the watermark. -/
lemma wanted_or_done {watermark since : Option Stamp} (hknown : Known py content watermark w)
    (hsince : sinceOf watermark = .ok since) {b : Blob} (hb : b ∈ w.blobs) :
    wanted since b = .ok true ∨ w.Done py content b := by
  cases watermark with
  | none =>
      cases hsince
      exact .inl rfl
  | some s =>
      obtain ⟨d, rfl, hsafe⟩ := hknown s rfl
      unfold sinceOf at hsince
      dsimp only at hsince
      split at hsince
      · cases hsince
      · next clock hshift =>
        cases hsince
        have hclock := Datetime.shift_eq_some.1 hshift
        by_cases hlt : (clock.ticks : ℤ) < b.lastModified.ticks
        · left
          simp [wanted, newer, hlt]
          rfl
        · right
          refine hsafe.done b hb ?_
          omega

/-- The blobs that a run selects are ahead of it. -/
lemma ahead_of_pending {watermark since : Option Stamp} {blobs pending : List Blob}
    (hknown : Known py content watermark w) (hsince : sinceOf watermark = .ok since)
    (hperm : blobs.Perm w.blobs) (hpending : pendingBlobs since blobs = .ok pending) :
    Ahead py content pending w := by
  obtain ⟨kept, hkept, h⟩ := Outcomes.bind_eq_ok.1 hpending
  cases h
  set sorted := kept.insertionSort Blob.NotLater
  have hsorted : sorted.Pairwise Blob.NotLater := List.pairwise_insertionSort Blob.NotLater kept
  have hmem : ∀ b, b ∈ sorted ↔ b ∈ w.blobs ∧ wanted since b = .ok true := by
    intro b
    rw [List.mem_insertionSort, mem_wantedBlobs hkept, hperm.mem_iff]
  refine ⟨fun b hb => ((hmem b).1 (List.mem_of_mem_take hb)).1,
    hsorted.sublist (List.take_sublist _ _), fun b hb b' hb' hold => ?_⟩
  rcases wanted_or_done hknown hsince hb' with hwanted | hdone
  · have hb'' := (hmem b').2 ⟨hb', hwanted⟩
    rw [← List.take_append_drop maxBlobsPerRun sorted] at hsorted hb''
    rcases List.mem_append.1 hb'' with htake | hdrop
    · exact .inr htake
    · -- What the cap leaves for the next run is not older than what it takes.
      have hle := (List.pairwise_append.1 hsorted).2.2 b hb b' hdrop
      simp only [Blob.NotLater, overlap] at hle hold
      omega
  · exact .inl hdone

/-! ### `run_once` -/

lemma wpE_routeMarkups {P : World K → Prop} (hP : Kept P) (hw : P w) :
    (discipline py content ι).wpE anyStep i routeMarkups (fun _ w' => P w')
      (fun _ _ => True) w := by
  unfold routeMarkups
  refine wpE_withSession hP hw (fun _ => hP) (fun w₁ hw₁ => ?_)
  exact (Discipline.wpE_tryCatch _ _).2 ((Discipline.wpE_bind _ _).2 (Discipline.wpE_mono
    (fun _ _ h => h.1) (fun _ _ h => h) (wpE_call rfl hP hw₁)))

lemma wpE_runOnce (configured : Bool) :
    (discipline py content ι).wpE anyStep i (runOnce py configured) (fun _ _ => True)
      (fun _ _ => True) w := by
  unfold runOnce
  cases configured with
  | false => exact trivial
  | true =>
      simp only [Bool.not_true, Bool.false_eq_true, if_false]
      have hknownKept : ∀ watermark, Kept (Known py content watermark) :=
        fun watermark w₁ w₂ hl h s hs => by
          obtain ⟨d, hd, hsafe⟩ := h s hs
          exact ⟨d, hd, hsafe.later hl⟩
      have hread : (discipline py content ι).wpE anyStep i readWatermark
          (fun watermark w' => Known py content watermark w') (fun _ _ => True) w := by
        unfold readWatermark
        refine wpE_withSession (P := fun _ => True) (fun _ _ _ h => h) trivial hknownKept
          (fun w₀ _ => ?_)
        refine (Discipline.wpE_tryCatch _ _).2 ((Discipline.wpE_bind _ _).2 (Discipline.wpE_mono
          (fun row w' h => ?_) (fun e w' _ => ?_)
          (wpE_call (P := fun _ => True) rfl (fun _ _ _ h => h) trivial)))
        · obtain ⟨-, rfl, hinv⟩ := h
          exact known_of_inv hinv
        · split_ifs
          · rintro s ⟨⟩
          · exact trivial
      refine Discipline.wpE_then hread (fun watermark w₁ hknown₁ => ?_)
      refine (Discipline.wpE_bind _ _).2 (wpE_lift (fun since hsince => ?_) (fun _ _ => trivial))
      refine Discipline.wpE_then (wpE_routeMarkups (hknownKept watermark) hknown₁)
        (fun markups w₂ hknown₂ => ?_)
      have hlist : (discipline py content ι).wpE anyStep i (attempt (listPending since))
          (fun pending w' => Ahead py content (pending.getD []) w') (fun _ _ => True) w₂ := by
        unfold listPending
        refine wpE_attempt ((Discipline.wpE_bind _ _).2 (Discipline.wpE_mono (fun blobs w₃ h₃ => ?_)
          (fun _ w₃ _ => ?_) (wpE_call rfl (hknownKept watermark) hknown₂)))
        · exact wpE_lift (fun pending hpending => ahead_of_pending h₃.1 hsince h₃.2.1 hpending)
            (fun _ _ => ⟨by simp, by simp, by simp⟩)
        · exact ⟨by simp, by simp, by simp⟩
      refine Discipline.wpE_then hlist (fun pending w₃ hahead => ?_)
      refine Discipline.wpE_then (wpE_importBlobs watermark markups _ _ hahead (by simp))
        (fun run w₄ hreached => ?_)
      cases hrun : run.reached with
      | none => exact trivial
      | some position =>
          exact Discipline.wpE_then (wpE_writeWatermark (hreached position hrun))
            (fun _ _ _ => trivial)

end Rules

/-! ## No lost blob -/

section Runs

variable {ι : Type} [DecidableEq ι]

/-- In every reachable state the stored time is safe, however many runs are at work and wherever
they have been cut off. -/
lemma safe_of_reaches {py : Runtime K} {content : String → List (AvroRecord K)} {w : World K}
    (hnone : w.position = none)
    {c : Config (importApi K) ι (World K) (Except Fault Stats)}
    (hreach : Reaches (env content ι) anyStep (start py w) c) : Inv py content c.world := by
  have hinv : Inv py content w := by
    intro p hp
    rw [hnone] at hp
    cases hp
  have hruns : ∀ i, (discipline py content ι).wp anyStep i ((start py w).prog i)
      (fun _ _ => True) w := by
    intro i
    have hrun : (discipline py content ι).wpE anyStep i (runOnce py true) (fun _ _ => True)
        (fun _ _ => True) w := wpE_runOnce true
    exact Discipline.wp_mono (fun _ _ _ => trivial) hrun
  exact (Discipline.sound (D := discipline py content ι) (c := start py w) (Q := fun _ _ _ => True)
    (fun _ _ _ _ _ _ _ => trivial) hinv hruns hreach).1

/-- **No lost blob.**  Any number of runs of the import, in any interleaving, of which every call
may fail and every one may stop anywhere, while blobs appear: what the stored watermark is past by
the overlap has been imported, every event with a request id. -/
theorem no_lost_blob (py : Runtime K) (content : String → List (AvroRecord K)) (w : World K)
    (hnone : w.position = none) (c : Config (importApi K) ι (World K) (Except Fault Stats))
    (hreach : Reaches (env content ι) anyStep (start py w) c) (watermark : Stamp)
    (hwatermark : parsePosition c.world.position = some watermark) (offset : ℤ)
    (hoffset : watermark.offset = some offset) (b : Blob) (hb : b ∈ c.world.blobs)
    (hold : (b.lastModified.ticks : ℤ) ≤ watermark.clock.ticks - offset - overlap)
    (event : Dict K) (hevent : event ∈ decodeAvro (content b.name)) (hkeyed : keyed event = true) :
    c.world.Imported py event := by
  have hknown := known_of_inv (safe_of_reaches hnone hreach)
  obtain ⟨d, rfl, hsafe⟩ := hknown watermark hwatermark
  cases hoffset
  exact hsafe.done b hb (by simp only [sub_zero] at hold; omega) event hevent hkeyed

end Runs

/-- Every blob holds one call. -/
def oneCall : String → List (AvroRecord ℚ) := fun _ =>
  [.body (.dict [("request_id", .str "r1"), ("ts", .str "2026-07-01T00:00:00Z")])]

/-- Two blobs, ten minutes from each other. -/
def twoBlobs : World ℚ where
  blobs := [⟨"10.avro", ⟨600000000, by decide⟩⟩, ⟨"0.avro", ⟨0, by decide⟩⟩]
  position := none
  upserts := []

/-- One replica imports both, while the other one has not begun. -/
def oneRun : List (Fin 2 × Fate (Pick ℚ) Fault) :=
  let clock : Pick ℚ := .clock ⟨0, ticksLimit_pos⟩
  let picks : List (Pick ℚ) :=
    [.served, .served, .served, .served, .markups [], .served, .listing twoBlobs.blobs,
      .served, clock, .served, .served, clock, .served, .served, .served, .served, .served]
  picks.map (fun x => (⟨0, Nat.zero_lt_two⟩, .served x))

/-- The older blob has been imported when the watermark is at the other one. -/
theorem no_lost_blob_twoBlobs :
    ∃ c : Config (importApi ℚ) (Fin 2) (World ℚ) (Except Fault Stats),
      Reaches (env oneCall (Fin 2)) anyStep (start .strict twoBlobs) c ∧
      c.world.position = some (Datetime.mk 600000000 (by decide)).isoformat ∧
      c.world.Imported .strict
        [("request_id", .str "r1"), ("ts", .str "2026-07-01T00:00:00Z")] := by
  obtain ⟨c, hreach, hposition, hblobs⟩ := Config.reaches_of_play (env oneCall (Fin 2)) anyStep
    (start .strict twoBlobs) oneRun (fun c => c.world.position =
      some (Datetime.mk 600000000 (by decide)).isoformat ∧ c.world.blobs = twoBlobs.blobs)
    (by decide +kernel)
  refine ⟨c, hreach, hposition, ?_⟩
  have hparsed := parsePosition_isoformat (Datetime.mk 600000000 (by decide))
  rw [← hposition] at hparsed
  exact no_lost_blob .strict oneCall twoBlobs rfl c hreach _ hparsed 0 rfl
    ⟨"0.avro", ⟨0, by decide⟩⟩ (by rw [hblobs]; decide) (by decide) _
      (by simp [oneCall, decodeAvro])
    (by decide)

end Watermark
end UsageCaptureImport
end TokenFoundry
