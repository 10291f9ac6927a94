import TokenFoundry.Framework.Grouping

/-!
# Numbered blocks in a stream

A sender splits a message into blocks, and sends the blocks in parts: a block is started under a
number, every part names the number of its block, and a block that is complete is stopped.  The
receiver keeps the blocks in a list.  It refuses a number that is not the next one, a part that does
not fit its block, and anything for a block that has been stopped.

What the sender has are items with a key.  The first item of a key starts a block, and the later
ones add parts to it.  Whatever the order of the items, the receiver accepts what is sent, and it
ends up with the items grouped by their keys (`replay_sent`).
-/

set_option autoImplicit false

namespace TokenFoundry
namespace Blocks

variable {κ β δ : Type}

/-- What is sent about the blocks: where one begins, a part of it, and where it ends. -/
inductive Event (β δ : Type)
  | start (i : ℕ) (head : β)
  | part (i : ℕ) (d : δ)
  | stop (i : ℕ)

/-- A block as the receiver has it: what it began with, the parts in their order, and whether more
may come. -/
structure Block (β δ : Type) where
  head : β
  parts : List δ
  isOpen : Bool

def Block.fresh (head : β) : Block β δ := ⟨head, [], true⟩

def Block.extend (ds : List δ) (b : Block β δ) : Block β δ := { b with parts := b.parts ++ ds }

def Block.close (b : Block β δ) : Block β δ := { b with isOpen := false }

/-! ## The receiver -/

/-- The receiver changes a block that is there, is open and fits; anything else is refused. -/
def change (i : ℕ) (p : β → Bool) (f : Block β δ → Block β δ) (bs : List (Block β δ)) :
    Option (List (Block β δ)) :=
  match bs[i]? with
  | some b => if b.isOpen && p b.head then some (bs.set i (f b)) else none
  | none => none

/-- The receiver's step; `fits` says which parts a block may have. -/
def receive (fits : β → δ → Bool) (bs : List (Block β δ)) : Event β δ → Option (List (Block β δ))
  | .start i head => if i = bs.length then some (bs ++ [Block.fresh head]) else none
  | .part i d => change i (fits · d) (Block.extend [d]) bs
  | .stop i => change i (fun _ => true) Block.close bs

/-- Events that are received one after the other; the first one that is refused ends it. -/
def receiveAll (fits : β → δ → Bool) (bs : List (Block β δ)) (es : List (Event β δ)) :
    Option (List (Block β δ)) :=
  es.foldlM (receive fits) bs

/-- A stream from its beginning, when the receiver has no blocks. -/
def replay (fits : β → δ → Bool) (es : List (Event β δ)) : Option (List (Block β δ)) :=
  receiveAll fits [] es

section Receiver

variable {fits : β → δ → Bool}

lemma receiveAll_append (bs : List (Block β δ)) (es es' : List (Event β δ)) :
    receiveAll fits bs (es ++ es') =
      (receiveAll fits bs es).bind (fun bs' => receiveAll fits bs' es') :=
  List.foldlM_append

lemma replay_append (es es' : List (Event β δ)) :
    replay fits (es ++ es') = (replay fits es).bind (fun bs => receiveAll fits bs es') :=
  receiveAll_append [] es es'

lemma change_eq {i : ℕ} {p : β → Bool} {f : Block β δ → Block β δ} {bs : List (Block β δ)}
    {b : Block β δ} (hb : bs[i]? = some b) (hopen : b.isOpen = true) (hp : p b.head = true) :
    change i p f bs = some (bs.set i (f b)) := by
  unfold change
  rw [hb]
  simp [hopen, hp]

lemma Block.extend_extend (ds ds' : List δ) (b : Block β δ) :
    (b.extend ds).extend ds' = b.extend (ds ++ ds') := by
  simp [Block.extend]

/-- All parts that are sent for an open block are added to it. -/
lemma receiveAll_parts {i : ℕ} {bs : List (Block β δ)} {b : Block β δ} (hb : bs[i]? = some b)
    (hopen : b.isOpen = true) {ds : List δ} (hds : ∀ d ∈ ds, fits b.head d = true) :
    receiveAll fits bs (ds.map (.part i)) = some (bs.set i (b.extend ds)) := by
  induction ds generalizing bs b with
  | nil =>
      have hself : bs.set i (b.extend []) = bs := by
        refine List.ext_getElem? (fun j => ?_)
        rw [List.getElem?_set]
        split_ifs with hij hlt
        · rw [← hij, hb]
          simp [Block.extend]
        · rw [← hij, List.getElem?_eq_none (by omega)]
        · rfl
      rw [hself]
      rfl
  | cons d ds ih =>
      have hlt : i < bs.length := (List.getElem?_eq_some_iff.1 hb).1
      rw [List.map_cons, receiveAll, List.foldlM_cons, receive,
        change_eq (f := Block.extend [d]) hb hopen (hds d List.mem_cons_self)]
      refine (ih (b := b.extend [d]) (by simp [hlt]) hopen
        (fun d' hd' => hds d' (List.mem_cons_of_mem d hd'))).trans ?_
      rw [List.set_set, Block.extend_extend]
      rfl

/-- Distinct open blocks are stopped; nothing else changes. -/
lemma receiveAll_stops {is : List ℕ} (hnodup : is.Nodup) {bs : List (Block β δ)}
    (hopen : ∀ i ∈ is, ∃ b, bs[i]? = some b ∧ b.isOpen = true) :
    ∃ bs', receiveAll fits bs (is.map .stop) = some bs' ∧
      ∀ j, bs'[j]? = if j ∈ is then bs[j]?.map Block.close else bs[j]? := by
  induction is generalizing bs with
  | nil => exact ⟨bs, rfl, fun j => by simp⟩
  | cons i is ih =>
      obtain ⟨hnot, hnodup⟩ := List.nodup_cons.1 hnodup
      obtain ⟨b, hb, hbopen⟩ := hopen i List.mem_cons_self
      have hlt : i < bs.length := (List.getElem?_eq_some_iff.1 hb).1
      have hrest : ∀ j ∈ is, ∃ b', (bs.set i b.close)[j]? = some b' ∧ b'.isOpen = true := by
        intro j hj
        have hne : i ≠ j := fun h => hnot (h ▸ hj)
        rw [List.getElem?_set_ne hne]
        exact hopen j (List.mem_cons_of_mem i hj)
      obtain ⟨bs', hbs', hall⟩ := ih hnodup hrest
      refine ⟨bs', ?_, fun j => ?_⟩
      · rw [List.map_cons, receiveAll, List.foldlM_cons, receive,
          change_eq (f := Block.close) hb hbopen rfl]
        exact hbs'
      · rw [hall j]
        by_cases hji : j = i
        · subst hji
          rw [if_neg hnot, if_pos List.mem_cons_self, List.getElem?_set_self hlt, hb]
          rfl
        · rw [List.getElem?_set_ne (Ne.symm hji)]
          simp [hji]

/-- Every block is stopped once: the receiver has the same blocks, all of them complete. -/
lemma receiveAll_stop_all {is : List ℕ} {bs : List (Block β δ)}
    (hopen : ∀ b ∈ bs, b.isOpen = true) (hperm : is.Perm (List.range bs.length)) :
    receiveAll fits bs (is.map .stop) = some (bs.map Block.close) := by
  have hmem : ∀ i, i ∈ is ↔ i < bs.length := fun i => by rw [hperm.mem_iff, List.mem_range]
  have hblocks : ∀ i ∈ is, ∃ b, bs[i]? = some b ∧ b.isOpen = true := by
    intro i hi
    have hlt := (hmem i).1 hi
    exact ⟨bs[i], List.getElem?_eq_getElem hlt, hopen _ (List.getElem_mem hlt)⟩
  obtain ⟨bs', hbs', hall⟩ : ∃ bs', receiveAll fits bs (is.map .stop) = some bs' ∧
      ∀ j, bs'[j]? = if j ∈ is then bs[j]?.map Block.close else bs[j]? :=
    receiveAll_stops (hperm.nodup_iff.2 List.nodup_range) hblocks
  rw [hbs']
  congr 1
  refine List.ext_getElem? (fun j => ?_)
  rw [hall j, List.getElem?_map]
  split_ifs with hj
  · rfl
  · rw [List.getElem?_eq_none (by simpa [hmem] using hj)]
    rfl

end Receiver

/-! ## The sender -/

/-- What the sender has for the block of a key: what the block begins with, which may depend on its
number, and what is added to it. -/
structure Item (κ β δ : Type) where
  key : κ
  head : ℕ → β
  parts : List δ

section Sender

variable [DecidableEq κ]

/-- The items, grouped: one block for each key, in the order in which the keys came. -/
def assemble (items : List (Item κ β δ)) : List (κ × Block β δ) :=
  items.foldl (fun entries a => Grouping.adjust (Block.fresh (a.head entries.length))
    (Block.extend a.parts) a.key entries) []

/-- The keys that have a block; the place of a key is the number of its block. -/
def keys (items : List (Item κ β δ)) : List κ := (assemble items).map Prod.fst

/-- What is sent for an item, if the keys have blocks. -/
def announce (ks : List κ) (a : Item κ β δ) : List (Event β δ) :=
  if a.key ∈ ks then a.parts.map (.part (ks.idxOf a.key))
  else .start ks.length (a.head ks.length) :: a.parts.map (.part ks.length)

/-- What is sent for all items, in their order; the keys are those that have a block already. -/
def sent : List (Item κ β δ) → List κ → List (Event β δ)
  | [], _ => []
  | a :: items, ks =>
      announce ks a ++ sent items (if a.key ∈ ks then ks else ks ++ [a.key])

/-- The blocks the receiver is to have: one for each key, with the parts of all its items. -/
def blocks (items : List (Item κ β δ)) : List (Block β δ) := (assemble items).map Prod.snd

lemma assemble_concat (items : List (Item κ β δ)) (a : Item κ β δ) :
    assemble (items ++ [a]) = Grouping.adjust (Block.fresh (a.head (assemble items).length))
      (Block.extend a.parts) a.key (assemble items) := by
  simp [assemble]

lemma keys_concat (items : List (Item κ β δ)) (a : Item κ β δ) :
    keys (items ++ [a]) = if a.key ∈ keys items then keys items else keys items ++ [a.key] := by
  rw [keys, assemble_concat, Grouping.map_fst_adjust]
  rfl

lemma length_keys (items : List (Item κ β δ)) : (keys items).length = (blocks items).length := by
  simp [keys, blocks]

lemma nodup_keys (items : List (Item κ β δ)) : (keys items).Nodup := by
  induction items using List.reverseRecOn with
  | nil => simp [keys, assemble]
  | append_singleton items a ih =>
      rw [keys, assemble_concat]
      exact Grouping.nodup_adjust ih

lemma mem_keys {k : κ} {items : List (Item κ β δ)} : k ∈ keys items ↔ ∃ a ∈ items, a.key = k := by
  induction items using List.reverseRecOn with
  | nil => simp [keys, assemble]
  | append_singleton items a ih =>
      rw [keys, assemble_concat, Grouping.mem_keys_adjust]
      have hkeys : k ∈ (assemble items).map Prod.fst ↔ ∃ b ∈ items, b.key = k := ih
      rw [hkeys]
      simp only [List.mem_append, List.mem_singleton, or_and_right, exists_or, exists_eq_left]
      rw [or_comm, eq_comm]

lemma sent_append (items items' : List (Item κ β δ)) (ks : List κ) :
    sent (items ++ items') ks = sent items ks ++
      sent items' (items.foldl (fun ks a => if a.key ∈ ks then ks else ks ++ [a.key]) ks) := by
  induction items generalizing ks with
  | nil => rfl
  | cons a items ih => simp only [List.cons_append, sent, ih, List.append_assoc, List.foldl_cons]

lemma foldl_keys (items : List (Item κ β δ)) :
    items.foldl (fun ks a => if a.key ∈ ks then ks else ks ++ [a.key]) [] = keys items := by
  induction items using List.reverseRecOn with
  | nil => rfl
  | append_singleton items a ih =>
      rw [List.foldl_append, ih, keys_concat]
      rfl

/-- The sender goes on where it is: what it sends for one more item depends on the keys before it
alone. -/
lemma sent_concat (items : List (Item κ β δ)) (a : Item κ β δ) :
    sent (items ++ [a]) [] = sent items [] ++ announce (keys items) a := by
  rw [sent_append, foldl_keys]
  simp [sent]

/-- What is sent comes from the items: there is nothing of the sender's own in it. -/
lemma mem_sent {items : List (Item κ β δ)} {ks : List κ} {e : Event β δ} (h : e ∈ sent items ks) :
    ∃ a ∈ items, ∃ i, e = .start i (a.head i) ∨ ∃ d ∈ a.parts, e = .part i d := by
  induction items generalizing ks with
  | nil => cases h
  | cons a items ih =>
      rcases List.mem_append.1 h with h | h
      · refine ⟨a, List.mem_cons_self, ?_⟩
        rw [announce] at h
        split_ifs at h
        · obtain ⟨d, hd, rfl⟩ := List.mem_map.1 h
          exact ⟨_, .inr ⟨d, hd, rfl⟩⟩
        · rcases List.mem_cons.1 h with rfl | h
          · exact ⟨_, .inl rfl⟩
          · obtain ⟨d, hd, rfl⟩ := List.mem_map.1 h
            exact ⟨_, .inr ⟨d, hd, rfl⟩⟩
      · obtain ⟨b, hb, i, he⟩ := ih h
        exact ⟨b, List.mem_cons_of_mem a hb, i, he⟩

/-- Where the entry of a key is changed: at the place of the key, or at the end where it is new. -/
lemma map_snd_adjust {fresh : β} {f : β → β} (k : κ) (entries : List (κ × β)) :
    (Grouping.adjust fresh f k entries).map Prod.snd =
      if k ∈ entries.map Prod.fst then
        (entries.map Prod.snd).modify ((entries.map Prod.fst).idxOf k) f
      else entries.map Prod.snd ++ [f fresh] := by
  induction entries with
  | nil => rfl
  | cons entry entries ih =>
      obtain ⟨other, b⟩ := entry
      unfold Grouping.adjust
      by_cases hother : other = k
      · subst hother
        simp
      · rw [if_neg hother, List.map_cons, ih]
        simp only [List.map_cons, List.mem_cons, Ne.symm hother, false_or]
        by_cases hmem : k ∈ entries.map Prod.fst
        · rw [if_pos hmem, if_pos hmem, List.idxOf_cons_ne _ hother, List.modify_succ_cons]
        · rw [if_neg hmem, if_neg hmem]
          rfl

/-- All items of a key fit what the block of the key begins with. -/
def Fits (fits : β → δ → Bool) (items : List (Item κ β δ)) : Prop :=
  ∀ a ∈ items, ∀ b ∈ items, a.key = b.key → ∀ i, ∀ d ∈ b.parts, fits (a.head i) d = true

/-- A block is open, and it begins with what an item of its key has. -/
lemma head_of_lookup {items : List (Item κ β δ)} {k : κ} {b : Block β δ}
    (h : (assemble items).lookup k = some b) :
    b.isOpen = true ∧ ∃ a ∈ items, a.key = k ∧ ∃ i, b.head = a.head i := by
  induction items using List.reverseRecOn generalizing k b with
  | nil => simp [assemble] at h
  | append_singleton items a ih =>
      rw [assemble_concat, Grouping.lookup_adjust] at h
      split_ifs at h with hk
      · obtain rfl := Option.some.inj h
        cases hold : (assemble items).lookup a.key with
        | none => exact ⟨rfl, a, by simp, hk.symm, _, rfl⟩
        | some b =>
            obtain ⟨hopen, a', ha', hkey, i, hhead⟩ := ih hold
            exact ⟨hopen, a', by simp [ha'], hkey.trans hk.symm, i, hhead⟩
      · obtain ⟨hopen, a', ha', hkey, i, hhead⟩ := ih h
        exact ⟨hopen, a', by simp [ha'], hkey, i, hhead⟩

lemma lookup_of_mem {items : List (Item κ β δ)} {e : κ × Block β δ} (h : e ∈ assemble items) :
    (assemble items).lookup e.1 = some e.2 :=
  Grouping.lookup_of_mem (nodup_keys items) h

lemma isOpen_blocks {items : List (Item κ β δ)} {b : Block β δ} (h : b ∈ blocks items) :
    b.isOpen = true := by
  obtain ⟨e, hmem, rfl⟩ := List.mem_map.1 h
  exact (head_of_lookup (lookup_of_mem hmem)).1

/-- **The receiver follows the sender**: it accepts what is sent for the items, and it has their
blocks. -/
theorem replay_sent {fits : β → δ → Bool} {items : List (Item κ β δ)} (hfits : Fits fits items) :
    replay fits (sent items []) = some (blocks items) := by
  induction items using List.reverseRecOn with
  | nil => rfl
  | append_singleton items a ih =>
      have hitems : Fits fits items := fun b hb c hc => hfits b (by simp [hb]) c (by simp [hc])
      have hblocks : blocks (items ++ [a]) = if a.key ∈ keys items then
          (blocks items).modify ((keys items).idxOf a.key) (Block.extend a.parts)
        else blocks items ++
          [Block.extend a.parts (Block.fresh (a.head (assemble items).length))] := by
        rw [blocks, assemble_concat, map_snd_adjust]
        rfl
      rw [sent_concat, replay_append, ih hitems, Option.bind_some, announce, hblocks]
      split_ifs with hmem
      -- The item goes on with a block: the sender names the place at which the receiver has it, and
      -- it is open there.
      · have hlt : (keys items).idxOf a.key < (assemble items).length := by
          have := List.idxOf_lt_length_of_mem hmem
          simpa [keys] using this
        have hkey : ((assemble items)[(keys items).idxOf a.key]).1 = a.key :=
          (List.getElem_map Prod.fst).symm.trans
            (List.getElem_idxOf (List.idxOf_lt_length_of_mem hmem))
        obtain ⟨hopen, b, hb, hbkey, i, hhead⟩ :=
          head_of_lookup (lookup_of_mem (List.getElem_mem hlt))
        have hblock : (blocks items)[(keys items).idxOf a.key]? =
            some ((assemble items)[(keys items).idxOf a.key]).2 := by
          rw [blocks, List.getElem?_map, List.getElem?_eq_getElem hlt]
          rfl
        rw [receiveAll_parts hblock hopen (fun d hd => ?_)]
        · rw [List.modify_eq_set_getElem?, hblock]
          rfl
        · rw [hhead]
          exact hfits b (by simp [hb]) a (by simp) (hbkey.trans hkey) i d hd
      -- The item begins a block, and the sender announces the next place, which is the one that the
      -- receiver has free.
      · rw [receiveAll, List.foldlM_cons, receive, if_pos (length_keys items)]
        refine (receiveAll_parts (b := Block.fresh (a.head (keys items).length)) ?_ rfl
          (fun d hd => hfits a (by simp) a (by simp) rfl _ d hd)).trans ?_
        · simp [length_keys]
        · simp [keys, blocks, Block.fresh]

/-- And when every block is stopped once, in any order, the blocks are complete. -/
theorem replay_sent_stops {fits : β → δ → Bool} {items : List (Item κ β δ)}
    (hfits : Fits fits items) {is : List ℕ} (his : is.Perm (List.range (keys items).length)) :
    replay fits (sent items [] ++ is.map .stop) = some ((blocks items).map Block.close) := by
  rw [replay_append, replay_sent hfits, Option.bind_some]
  exact receiveAll_stop_all (fun b hb => isOpen_blocks hb) (length_keys items ▸ his)

/-! ## The numbers of the keys -/

omit [DecidableEq κ] in
lemma map_snd_zipIdx (ks : List κ) : ks.zipIdx.map Prod.snd = List.range ks.length := by
  rw [List.zipIdx_map_snd, List.range_eq_range']

/-- A table of the keys with their numbers, as the sender keeps one, gives the place of a key. -/
lemma find?_zipIdx (k : κ) (ks : List κ) (n : ℕ) :
    (ks.zipIdx n).find? (fun e => decide (e.1 = k)) =
      if k ∈ ks then some (k, n + ks.idxOf k) else none := by
  induction ks generalizing n with
  | nil => rfl
  | cons k' ks ih =>
      rw [List.zipIdx_cons, List.find?_cons]
      by_cases hk : k' = k
      · simp [hk]
      · rw [ih, List.idxOf_cons_ne _ hk]
        simp only [hk, decide_false, List.mem_cons, Ne.symm hk, false_or]
        split_ifs
        · congr 2
          omega
        · rfl

lemma filter_zipIdx {k : κ} {ks : List κ} (h : ks.Nodup) (n : ℕ) :
    ((ks.zipIdx n).filter (fun e => decide (e.1 = k))).map Prod.snd =
      if k ∈ ks then [n + ks.idxOf k] else [] := by
  induction ks generalizing n with
  | nil => rfl
  | cons k' ks ih =>
      obtain ⟨hnot, hnodup⟩ := List.nodup_cons.1 h
      rw [List.zipIdx_cons, List.filter_cons]
      by_cases hk : k' = k
      · subst hk
        simp [ih hnodup, hnot]
      · simp only [hk, decide_false, Bool.false_eq_true, if_false, ih hnodup, List.mem_cons,
          Ne.symm hk, false_or, List.idxOf_cons_ne _ hk]
        split_ifs
        · congr 1
          omega
        · rfl

/-! ## The blocks, one by one -/

/-- The complete block of a key under a number: it begins with what the first item of the key has,
and it has the parts of all of them. -/
def blockOf (items : List (Item κ β δ)) (k : κ) (i : ℕ) : Option (Block β δ) :=
  (items.find? (fun a => decide (a.key = k))).map (fun a =>
    ⟨a.head i, (items.filter (fun a => decide (a.key = k))).flatMap Item.parts, false⟩)

/-- The keys in the order in which they come first, each with its block. -/
def grouped (items : List (Item κ β δ)) : List (Block β δ) :=
  ((items.map Item.key).eraseDups.zipIdx).filterMap (fun e => blockOf items e.1 e.2)

lemma keys_eq (items : List (Item κ β δ)) : keys items = (items.map Item.key).eraseDups := by
  induction items using List.reverseRecOn with
  | nil => simp [keys, assemble]
  | append_singleton items a ih =>
      have hmem : a.key ∈ keys items ↔ a.key ∈ items.map Item.key := by
        rw [mem_keys, List.mem_map]
      have hremove : [a.key].removeAll (items.map Item.key) =
          if a.key ∈ items.map Item.key then [] else [a.key] := by
        rw [List.removeAll, List.filter_cons]
        by_cases h : a.key ∈ items.map Item.key
        · rw [if_neg (by simpa using h), if_pos h, List.filter_nil]
        · rw [if_pos (by simpa using h), if_neg h, List.filter_nil]
      rw [keys_concat, List.map_append, List.map_singleton, List.eraseDups_append, ← ih, hremove]
      by_cases h : a.key ∈ keys items
      · rw [if_pos h, if_pos (hmem.1 h), List.eraseDups_nil, List.append_nil]
      · rw [if_neg h, if_neg (fun hin => h (hmem.2 hin)), List.eraseDups_cons, List.filter_nil,
          List.eraseDups_nil]

lemma blockOf_concat_ne {items : List (Item κ β δ)} {a : Item κ β δ} {k : κ} (h : a.key ≠ k)
    (i : ℕ) : blockOf (items ++ [a]) k i = blockOf items k i := by
  simp [blockOf, List.find?_append, h]

lemma blockOf_concat_none {items : List (Item κ β δ)} {k : κ} {i : ℕ}
    (h : blockOf items k i = none) (a : Item κ β δ) (hk : a.key = k) (j : ℕ) :
    blockOf (items ++ [a]) k j = some ⟨a.head j, a.parts, false⟩ := by
  have hfind : items.find? (fun b => decide (b.key = k)) = none := Option.map_eq_none_iff.1 h
  have hfilter : items.filter (fun b => decide (b.key = k)) = [] :=
    List.filter_eq_nil_iff.2 (List.find?_eq_none.1 hfind)
  rw [blockOf, List.find?_append, hfind, List.filter_append, hfilter]
  simp [hk]

lemma blockOf_concat_some {items : List (Item κ β δ)} {k : κ} {i : ℕ} {b : Block β δ}
    (h : blockOf items k i = some b) (a : Item κ β δ) (hk : a.key = k) :
    blockOf (items ++ [a]) k i = some (b.extend a.parts) := by
  obtain ⟨a', hfind, rfl⟩ := Option.map_eq_some_iff.1 h
  rw [blockOf, List.find?_append, hfind, List.filter_append, List.flatMap_append]
  simp [hk, Block.extend]

/-- The block of a key, closed, is the one that the definition of `blockOf` reads off the items. -/
lemma lookup_assemble (items : List (Item κ β δ)) (k : κ) :
    ((assemble items).lookup k).map Block.close = blockOf items k ((keys items).idxOf k) := by
  induction items using List.reverseRecOn with
  | nil => rfl
  | append_singleton items a ih =>
      rw [assemble_concat, Grouping.lookup_adjust, keys_concat]
      by_cases hk : k = a.key
      · subst hk
        rw [if_pos rfl]
        cases hold : (assemble items).lookup a.key with
        -- A key that is new has no block yet, and its place is the next one.
        | none =>
            rw [hold] at ih
            have hnot : a.key ∉ keys items := by
              intro hmem
              obtain ⟨e, he, hkey⟩ := List.mem_map.1 hmem
              have hsome := lookup_of_mem he
              rw [hkey, hold] at hsome
              cases hsome
            rw [if_neg hnot, List.idxOf_append_of_notMem hnot, List.idxOf_cons_self, Nat.add_zero,
              blockOf_concat_none ih.symm a rfl]
            simp [keys, Block.extend, Block.fresh, Block.close]
        | some b =>
            rw [hold] at ih
            have hmem : a.key ∈ keys items := by
              by_contra hnot
              obtain ⟨-, a', ha', hkey, -⟩ := head_of_lookup hold
              exact hnot (mem_keys.2 ⟨a', ha', hkey⟩)
            rw [if_pos hmem, blockOf_concat_some ih.symm a rfl]
            rfl
      -- An item of another key moves no place that a key has already.
      · rw [if_neg hk, ih, blockOf_concat_ne (Ne.symm hk)]
        split_ifs with hmem
        · rfl
        · by_cases hin : k ∈ keys items
          · rw [List.idxOf_append_of_mem hin]
          · have hnone : ∀ i, blockOf items k i = none := fun i =>
              Option.map_eq_none_iff.2 (List.find?_eq_none.2 (fun a' ha' hkey =>
                hin (mem_keys.2 ⟨a', ha', by simpa using hkey⟩)))
            rw [hnone, hnone]

/-- A list, read off by its places from the first to the last. -/
lemma filterMap_range {α : Type} (l : List α) :
    (List.range l.length).filterMap (fun i => l[i]?) = l := by
  induction l using List.reverseRecOn with
  | nil => rfl
  | append_singleton l a ih =>
      have hbefore : ∀ i ∈ List.range l.length, (l ++ [a])[i]? = l[i]? :=
        fun i hi => List.getElem?_append_left (List.mem_range.1 hi)
      rw [List.length_append, List.length_singleton, List.range_succ, List.filterMap_append,
        List.filterMap_congr hbefore, ih]
      simp

/-- **The blocks**: they are those of the keys, in the order in which the keys come first. -/
theorem blocks_close (items : List (Item κ β δ)) :
    (blocks items).map Block.close = grouped items := by
  have hsome : ∀ e ∈ (keys items).zipIdx, blockOf items e.1 e.2 =
      ((assemble items)[e.2]?).map (fun entry => entry.2.close) := by
    intro e he
    obtain ⟨hlt, hkey⟩ := List.mem_zipIdx' he
    have hentry : e.2 < (assemble items).length := by simpa [keys] using hlt
    have hk : (assemble items)[e.2].1 = e.1 := by
      rw [hkey]
      exact (List.getElem_map Prod.fst).symm
    have hidx : (keys items).idxOf e.1 = e.2 := by
      rw [hkey]
      exact (nodup_keys items).idxOf_getElem e.2 hlt
    have hlookup := lookup_assemble items e.1
    rw [← hk, lookup_of_mem (List.getElem_mem hentry), hk, hidx] at hlookup
    rw [← hlookup, List.getElem?_eq_getElem hentry]
    rfl
  have hplaces : (keys items).zipIdx.filterMap
      (fun e => ((assemble items)[e.2]?).map (fun entry => entry.2.close)) =
        ((List.range (assemble items).length).filterMap (fun i => (assemble items)[i]?)).map
          (fun entry => entry.2.close) := by
    rw [List.map_filterMap, show (assemble items).length = (keys items).length by simp [keys],
      ← map_snd_zipIdx, List.filterMap_map]
    rfl
  rw [grouped, ← keys_eq, List.filterMap_congr hsome, hplaces, filterMap_range, blocks,
    List.map_map]
  rfl

end Sender

end Blocks
end TokenFoundry
