/-!
# Rosters

What belongs to numbered tones is kept in the order of the numbers, so that every list of tones comes out in that order.

* `Roster α` : entries under distinct numbers, in ascending order;
* `Roster.get?` : the entry under a number, the view in which the operations are described (`get?_insert`,
  `get?_filter`, `get?_map` and their kin);
* `Roster.insert`, `Roster.modify`, `Roster.erase`, `Roster.filter` : the operations;
* `Roster.mapOut` : a step of every entry, with what each of them gives out.
-/

namespace MusicMacro

/-- The number of a tone. -/
abbrev ToneId := Nat

/-- Entries under distinct numbers. -/
structure Roster (α : Type) where
  entries : List (ToneId × α)
  ascending : entries.Pairwise fun a b => a.1 < b.1

namespace Roster
variable {α β : Type}

def empty : Roster α := ⟨[], .nil⟩

/-- The numbers of a roster, in ascending order. -/
def ids (r : Roster α) : List ToneId := r.entries.map Prod.fst

def size (r : Roster α) : Nat := r.entries.length

def get? (r : Roster α) (id : ToneId) : Option α := (r.entries.find? fun e => e.1 == id).map Prod.snd

def contains (r : Roster α) (id : ToneId) : Bool := r.entries.any fun e => e.1 == id

/-! ## Insertion -/

/-- The entries with one more at its place, or in the place of the one with the same number. -/
def insertEntry (id : ToneId) (a : α) : List (ToneId × α) → List (ToneId × α)
  | [] => [(id, a)]
  | e :: rest =>
    if id < e.1 then (id, a) :: e :: rest
    else if id = e.1 then (id, a) :: rest
    else e :: insertEntry id a rest

theorem mem_insertEntry {id : ToneId} {a : α} {es : List (ToneId × α)} {e : ToneId × α}
    (h : e ∈ insertEntry id a es) : e = (id, a) ∨ e ∈ es := by
  induction es with
  | nil => simpa [insertEntry] using h
  | cons x rest ih =>
    unfold insertEntry at h
    split at h
    · simpa using h
    · split at h
      · rcases List.mem_cons.1 h with h | h
        · exact .inl h
        · exact .inr (List.mem_cons_of_mem _ h)
      · rcases List.mem_cons.1 h with h | h
        · exact .inr (h ▸ List.mem_cons_self)
        · exact (ih h).imp (fun h => h) (List.mem_cons_of_mem _)

theorem pairwise_insertEntry (id : ToneId) (a : α) {es : List (ToneId × α)}
    (h : es.Pairwise fun x y => x.1 < y.1) : (insertEntry id a es).Pairwise fun x y => x.1 < y.1 := by
  induction es with
  | nil => simp [insertEntry]
  | cons x rest ih =>
    obtain ⟨hx, hrest⟩ := List.pairwise_cons.1 h
    unfold insertEntry
    split
    · rename_i hlt
      refine List.pairwise_cons.2 ⟨fun y hy => ?_, h⟩
      rcases List.mem_cons.1 hy with rfl | hy
      · exact hlt
      · exact Nat.lt_trans hlt (hx y hy)
    · split
      · rename_i heq
        exact List.pairwise_cons.2 ⟨fun y hy => heq ▸ hx y hy, hrest⟩
      · rename_i hlt hne
        refine List.pairwise_cons.2 ⟨fun y hy => ?_, ih hrest⟩
        rcases mem_insertEntry hy with rfl | hy
        · exact Nat.lt_of_le_of_ne (Nat.le_of_not_lt hlt) (Ne.symm hne)
        · exact hx y hy

theorem mem_insertEntry_iff {id : ToneId} {a : α} {es : List (ToneId × α)}
    (h : es.Pairwise fun x y => x.1 < y.1) {e : ToneId × α} :
    e ∈ insertEntry id a es ↔ e = (id, a) ∨ e ∈ es ∧ e.1 ≠ id := by
  induction es with
  | nil => simp [insertEntry]
  | cons x rest ih =>
    obtain ⟨hx, hrest⟩ := List.pairwise_cons.1 h
    have hlater : ∀ y ∈ rest, x.1 ≤ y.1 := fun y hy => Nat.le_of_lt (hx y hy)
    unfold insertEntry
    split
    · rename_i hlt
      constructor
      · intro he
        rcases List.mem_cons.1 he with he | he
        · exact .inl he
        · rcases List.mem_cons.1 he with rfl | hmem
          · exact .inr ⟨he, Nat.ne_of_gt hlt⟩
          · exact .inr ⟨he, Nat.ne_of_gt (Nat.lt_of_lt_of_le hlt (hlater e hmem))⟩
      · rintro (he | ⟨he, -⟩)
        · exact he ▸ List.mem_cons_self
        · exact List.mem_cons_of_mem _ he
    · split
      · rename_i heq
        constructor
        · intro he
          rcases List.mem_cons.1 he with he | he
          · exact .inl he
          · exact .inr ⟨List.mem_cons_of_mem _ he, heq ▸ Nat.ne_of_gt (hx e he)⟩
        · rintro (he | ⟨he, hne⟩)
          · exact he ▸ List.mem_cons_self
          · rcases List.mem_cons.1 he with rfl | he
            · exact absurd heq.symm hne
            · exact List.mem_cons_of_mem _ he
      · rename_i hne
        rw [List.mem_cons, ih hrest, List.mem_cons]
        constructor
        · rintro (rfl | he | ⟨he, hid⟩)
          · exact .inr ⟨.inl rfl, Ne.symm hne⟩
          · exact .inl he
          · exact .inr ⟨.inr he, hid⟩
        · rintro (he | ⟨rfl | he, hid⟩)
          · exact .inr (.inl he)
          · exact .inl rfl
          · exact .inr (.inr ⟨he, hid⟩)

def insert (r : Roster α) (id : ToneId) (a : α) : Roster α :=
  ⟨insertEntry id a r.entries, pairwise_insertEntry id a r.ascending⟩

/-! ## Changes that keep the order -/

def filter (r : Roster α) (p : ToneId → α → Bool) : Roster α :=
  ⟨r.entries.filter fun e => p e.1 e.2, r.ascending.filter _⟩

def erase (r : Roster α) (id : ToneId) : Roster α := r.filter fun i _ => i != id

def map (r : Roster α) (f : ToneId → α → β) : Roster β :=
  ⟨r.entries.map fun e => (e.1, f e.1 e.2), List.pairwise_map.2 r.ascending⟩

def modify (r : Roster α) (id : ToneId) (f : α → α) : Roster α := r.map fun i a => if i = id then f a else a

/-- Takes a step with every entry: what the entries give out, and the roster after the step. -/
def mapOut (r : Roster α) (f : α → β × α) : List β × Roster α :=
  let stepped := r.map fun _ a => f a
  (stepped.entries.map fun e => e.2.1, stepped.map fun _ o => o.2)

/-! ## The view -/

/-- Where numbers ascend, no two entries have the same one. -/
theorem find?_eq_some_iff {es : List (ToneId × α)} (h : es.Pairwise fun x y => x.1 < y.1) {id : ToneId}
    {e : ToneId × α} : (es.find? fun e => e.1 == id) = some e ↔ e ∈ es ∧ e.1 = id := by
  induction es with
  | nil => simp
  | cons x rest ih =>
    obtain ⟨hx, hrest⟩ := List.pairwise_cons.1 h
    by_cases hid : x.1 = id
    · rw [List.find?_cons_of_pos (by simpa using hid), Option.some.injEq]
      constructor
      · rintro rfl
        exact ⟨List.mem_cons_self, hid⟩
      · rintro ⟨he, heid⟩
        rcases List.mem_cons.1 he with rfl | he
        · rfl
        · exact absurd (hid.trans heid.symm) (Nat.ne_of_lt (hx e he))
    · rw [List.find?_cons_of_neg (by simpa using hid), ih hrest]
      constructor
      · rintro ⟨he, heid⟩
        exact ⟨List.mem_cons_of_mem _ he, heid⟩
      · rintro ⟨he, heid⟩
        rcases List.mem_cons.1 he with rfl | he
        · exact absurd heid hid
        · exact ⟨he, heid⟩

theorem get?_eq_some_iff {r : Roster α} {id : ToneId} {a : α} : r.get? id = some a ↔ (id, a) ∈ r.entries := by
  constructor
  · intro h
    obtain ⟨e, he, rfl⟩ := Option.map_eq_some_iff.1 h
    obtain ⟨hmem, rfl⟩ := (find?_eq_some_iff r.ascending).1 he
    exact hmem
  · intro h
    rw [get?, (find?_eq_some_iff r.ascending).2 ⟨h, rfl⟩]
    rfl

@[simp] theorem get?_empty (id : ToneId) : (empty : Roster α).get? id = none := rfl

theorem get?_insert (r : Roster α) (id i : ToneId) (a : α) :
    (r.insert id a).get? i = if i = id then some a else r.get? i := by
  refine Option.ext fun b => ?_
  rw [get?_eq_some_iff, insert, mem_insertEntry_iff r.ascending]
  split
  · simp_all
    exact eq_comm
  · simp_all [get?_eq_some_iff]

theorem get?_filter (r : Roster α) (p : ToneId → α → Bool) (id : ToneId) :
    (r.filter p).get? id = (r.get? id).filter (p id) := by
  refine Option.ext fun b => ?_
  simp [get?_eq_some_iff, filter, Option.filter_eq_some_iff]

theorem get?_erase (r : Roster α) (id i : ToneId) :
    (r.erase id).get? i = if i = id then none else r.get? i := by
  rw [erase, get?_filter]
  split <;> cases r.get? i <;> simp_all

theorem get?_map (r : Roster α) (f : ToneId → α → β) (id : ToneId) :
    (r.map f).get? id = (r.get? id).map (f id) := by
  refine Option.ext fun b => ?_
  rw [get?_eq_some_iff, Option.map_eq_some_iff]
  simp only [map, List.mem_map, get?_eq_some_iff, Prod.mk.injEq, Prod.exists]
  constructor
  · rintro ⟨i, a, hmem, rfl, rfl⟩
    exact ⟨a, hmem, rfl⟩
  · rintro ⟨a, hmem, rfl⟩
    exact ⟨id, a, hmem, rfl, rfl⟩

theorem get?_modify (r : Roster α) (id i : ToneId) (f : α → α) :
    (r.modify id f).get? i = if i = id then (r.get? i).map f else r.get? i := by
  rw [modify, get?_map]
  split <;> simp_all

theorem mem_ids_iff {r : Roster α} {id : ToneId} : id ∈ r.ids ↔ ∃ a, r.get? id = some a := by
  simp only [get?_eq_some_iff, ids, List.mem_map, Prod.exists]
  constructor
  · rintro ⟨i, a, hmem, rfl⟩
    exact ⟨a, hmem⟩
  · rintro ⟨a, hmem⟩
    exact ⟨id, a, hmem, rfl⟩

end Roster

end MusicMacro
