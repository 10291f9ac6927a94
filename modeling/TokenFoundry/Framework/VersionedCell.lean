import Mathlib.Data.List.Infix
import Mathlib.Data.Finset.Basic
import Mathlib.Data.Fintype.Basic

/-!
# A versioned cell and its history

A remote document with an ETag is a value that changes its tag on every write.  `Cell` keeps
the whole history of such a document: the initial value and the list of writes, newest first,
each with the thread that made it.  The tag is the number of writes, so a tag that is still
current means that the value read with it is still current (`Cell.Past.eq_of_version`).

`Cell.exists_serial` is how a history becomes a serial order.  If every write is a transition
of its writer from the value it replaced, then the writers in the order of their writes, with
the operations that changed nothing inserted where they read the cell, are a serial execution
that ends in the current value.
-/

set_option autoImplicit false

namespace TokenFoundry

/-- A document with its history; the newest write is at the head. -/
structure Cell (ι V : Type) where
  initial : V
  log : List (ι × V)

namespace Cell

variable {ι V : Type}

/-- The document as it stands: the one written last, or the initial one. -/
def value (c : Cell ι V) : V := (c.log.head?.map Prod.snd).getD c.initial

/-- The tag of the current value.  It counts the writes, so that no two states of one cell have the
same tag. -/
def version (c : Cell ι V) : ℕ := c.log.length

/-- A write by thread `i`, which is noted with the document. -/
def write (c : Cell ι V) (i : ι) (v : V) : Cell ι V := { c with log := (i, v) :: c.log }

/-- Who has written, the last one first. -/
def writers (c : Cell ι V) : List ι := c.log.map Prod.fst

@[simp] lemma value_write (c : Cell ι V) (i : ι) (v : V) : (c.write i v).value = v := rfl

@[simp] lemma version_write (c : Cell ι V) (i : ι) (v : V) :
    (c.write i v).version = c.version + 1 := rfl

@[simp] lemma initial_write (c : Cell ι V) (i : ι) (v : V) :
    (c.write i v).initial = c.initial := rfl

@[simp] lemma writers_write (c : Cell ι V) (i : ι) (v : V) :
    (c.write i v).writers = i :: c.writers := rfl

/-! ## Past states -/

/-- `c` is a state the cell `c'` went through: it began with the same document, and nothing has been
written to it but later than that. -/
def Past (c c' : Cell ι V) : Prop := c.initial = c'.initial ∧ c.log <:+ c'.log

lemma Past.refl (c : Cell ι V) : Past c c := ⟨rfl, List.suffix_rfl⟩

lemma Past.trans {c₁ c₂ c₃ : Cell ι V} (h₁ : Past c₁ c₂) (h₂ : Past c₂ c₃) : Past c₁ c₃ :=
  ⟨h₁.1.trans h₂.1, h₁.2.trans h₂.2⟩

lemma past_write (c : Cell ι V) (i : ι) (v : V) : Past c (c.write i v) :=
  ⟨rfl, List.suffix_cons _ _⟩

lemma past_write_iff {p c : Cell ι V} {i : ι} {v : V} :
    Past p (c.write i v) ↔ p = c.write i v ∨ Past p c := by
  constructor
  · rintro ⟨hinit, hlog⟩
    rcases List.suffix_cons_iff.1 hlog with heq | hsuf
    · left
      cases p
      simp_all [write]
    · exact .inr ⟨hinit, hsuf⟩
  · rintro (rfl | hp)
    · exact Past.refl _
    · exact hp.trans (past_write c i v)

/-- An unchanged tag means an unchanged document: this is what a conditional write relies on. -/
lemma Past.eq_of_version {c c' : Cell ι V} (h : Past c c') (hv : c.version = c'.version) :
    c = c' := by
  have hlog : c.log = c'.log := h.2.eq_of_length hv
  cases c
  cases c'
  exact congr (congrArg Cell.mk h.1) hlog

lemma Past.writers_subset {c c' : Cell ι V} (h : Past c c') : c.writers ⊆ c'.writers :=
  List.map_subset Prod.fst h.2.subset

/-! ## Serial executions -/

/-- Executing the operations of the listed threads one after the other, where `R` says what the
operation of a thread may make of a document. -/
inductive Serial (R : ι → V → V → Prop) : V → List ι → V → Prop
  | nil (v : V) : Serial R v [] v
  | snoc {v v' v'' : V} {is : List ι} {i : ι} (h : Serial R v is v') (hi : R i v' v'') :
      Serial R v (is ++ [i]) v''

/-- Operations that change nothing may be appended in any order, so that the threads without a write
can be fitted in. -/
lemma Serial.append_noops {R : ι → V → V → Prop} {v v' : V} {is : List ι}
    (h : Serial R v is v') (js : List ι) (hjs : ∀ j ∈ js, R j v' v') :
    Serial R v (is ++ js) v' := by
  induction js generalizing is with
  | nil => simpa using h
  | cons j js ih =>
      have hj : Serial R v (is ++ [j]) v' := .snoc h (hjs j List.mem_cons_self)
      have hrest := ih hj (fun k hk => hjs k (List.mem_cons_of_mem _ hk))
      simpa using hrest

/-- Every write of the history is a transition of its writer from the value it replaced. -/
def WritesFrom (R : ι → V → V → Prop) (c : Cell ι V) : Prop :=
  ∀ p i v, Past (write p i v) c → R i p.value v

lemma WritesFrom.past {R : ι → V → V → Prop} {c c' : Cell ι V} (h : WritesFrom R c')
    (hp : Past c c') : WritesFrom R c :=
  fun p i v hw => h p i v (hw.trans hp)

lemma WritesFrom.write {R : ι → V → V → Prop} {c : Cell ι V} {i : ι} {v : V}
    (h : WritesFrom R c) (hi : R i c.value v) : WritesFrom R (c.write i v) := by
  intro p j u hp
  rcases past_write_iff.1 hp with heq | hp
  · have hlog : (j, u) :: p.log = (i, v) :: c.log := congrArg Cell.log heq
    have hinit : (p.write j u).initial = (c.write i v).initial := congrArg Cell.initial heq
    obtain ⟨hpair, htail⟩ := List.cons.inj hlog
    obtain ⟨rfl, rfl⟩ := Prod.mk.inj hpair
    have hpc : p = c := by
      cases p
      cases c
      exact congr (congrArg Cell.mk hinit) htail
    rw [hpc]
    exact hi
  · exact h p j u hp

/-- **Serialisation.**  The writers, with the operations that changed nothing inserted where
they read the cell, are a serial execution from the initial to the current value. -/
theorem exists_serial [DecidableEq ι] {R : ι → V → V → Prop} (c : Cell ι V)
    (hw : c.WritesFrom R) (hnodup : c.writers.Nodup) (noops : Finset ι)
    (hdisj : ∀ j ∈ noops, j ∉ c.writers)
    (hnoops : ∀ j ∈ noops, ∃ p, Past p c ∧ R j p.value p.value) :
    ∃ order : List ι, order.Nodup ∧ (∀ i, i ∈ order ↔ i ∈ c.writers ∨ i ∈ noops) ∧
      Serial R c.initial order c.value := by
  classical
  obtain ⟨v₀, log⟩ := c
  induction log generalizing noops with
  | nil =>
      refine ⟨noops.toList, noops.nodup_toList, fun i => by simp [writers], ?_⟩
      have hall : ∀ j ∈ noops.toList, R j v₀ v₀ := by
        intro j hj
        obtain ⟨p, ⟨hinit, hlog⟩, hR⟩ := hnoops j (by simpa using hj)
        have hp : p.value = v₀ := by
          rw [value, List.suffix_nil.1 hlog]
          exact hinit
        rwa [hp] at hR
      exact (Serial.nil v₀).append_noops noops.toList hall
  | cons e log ih =>
      obtain ⟨i, v⟩ := e
      -- The operations that read an earlier state are ordered before this write.
      set c : Cell ι V := ⟨v₀, log⟩ with hc
      have hcw : (⟨v₀, (i, v) :: log⟩ : Cell ι V) = c.write i v := rfl
      rw [hcw] at hw hnodup hdisj hnoops ⊢
      set early := noops.filter (fun j => ∃ p, Past p c ∧ R j p.value p.value) with hearly
      set late := noops.filter (fun j => ¬ ∃ p, Past p c ∧ R j p.value p.value) with hlate
      rw [writers_write, List.nodup_cons] at hnodup
      obtain ⟨order, hord, hmem, hserial⟩ := ih early (hw.past (past_write c i v)) hnodup.2
        (fun j hj hjw => hdisj j (Finset.mem_of_mem_filter j hj) (by simp [hjw]))
        (fun j hj => (Finset.mem_filter.1 hj).2)
      have hwrite : R i c.value v := hw c i v (Past.refl _)
      have hi : i ∉ noops := fun h => hdisj i h (by simp)
      have hlater : ∀ j ∈ late.toList, R j v v := by
        intro j hj
        obtain ⟨hj, hnot⟩ := Finset.mem_filter.1 (Finset.mem_toList.1 hj)
        obtain ⟨p, hp, hR⟩ := hnoops j hj
        rcases past_write_iff.1 hp with rfl | hp
        · exact hR
        · exact absurd ⟨p, hp, hR⟩ hnot
      refine ⟨(order ++ [i]) ++ late.toList, ?_, ?_, ?_⟩
      · have hsplit : ∀ j ∈ order ++ [i], j ∉ late := by
          intro j hj hjl
          obtain ⟨hjn, hnot⟩ := Finset.mem_filter.1 hjl
          rcases List.mem_append.1 hj with hj | hj
          · rcases (hmem j).1 hj with hj | hj
            · exact hdisj j hjn (by simp [hj])
            · exact hnot (Finset.mem_filter.1 hj).2
          · exact hi (List.mem_singleton.1 hj ▸ hjn)
        refine List.nodup_append.2 ⟨List.nodup_append.2 ⟨hord, by simp, ?_⟩, late.nodup_toList, ?_⟩
        · rintro j hj k hk rfl
          rw [List.mem_singleton] at hk
          subst hk
          rcases (hmem _).1 hj with hj | hj
          · exact hnodup.1 hj
          · exact hi (Finset.mem_of_mem_filter _ hj)
        · rintro j hj k hk rfl
          exact hsplit j hj (by simpa using hk)
      · intro j
        have hsplit : j ∈ noops ↔ j ∈ early ∨ j ∈ late := by
          rw [hearly, hlate, ← Finset.mem_union, Finset.filter_union_filter_not_eq]
        rw [List.mem_append, List.mem_append, hmem, List.mem_singleton, Finset.mem_toList,
          writers_write, List.mem_cons, hsplit]
        tauto
      · exact (Serial.snoc hserial hwrite).append_noops late.toList hlater

end Cell

end TokenFoundry
