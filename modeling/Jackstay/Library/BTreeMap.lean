import Mathlib.Algebra.GroupWithZero.Nat
import Mathlib.Data.List.Nodup
import Mathlib.Algebra.BigOperators.Group.List.Basic
import Mathlib.Tactic.Common

/-!
Finite ordered maps with natural-number keys: what the programs use of an
ordered tree map. The entries are kept in ascending key order, and the
ordering is a field of the structure, so that a map with two entries for one
key cannot be built.

`weight f m` is the sum of `f` over the values; `weight_insert` and
`weight_remove` say how it moves, and are the whole of what an accounting
argument over such a map needs. The number of entries is `weight (fun _ => 1)`.
A hash map whose order nothing depends on is such a map too; `retain` is for those.
-/

namespace Jackstay

/-- A finite map from natural numbers, as its entries in ascending key order. -/
structure BTreeMap (V : Type*) where
  entries : List (ℕ × V)
  sorted : (entries.map Prod.fst).Pairwise (· < ·)

namespace BTreeMap

variable {V : Type*}

/-- The empty map. -/
def empty : BTreeMap V := ⟨[], List.Pairwise.nil⟩

/-- Insertion into a sorted list of entries; an existing key is overwritten. -/
def insertEntry (k : ℕ) (v : V) : List (ℕ × V) → List (ℕ × V)
  | [] => [(k, v)]
  | e :: es =>
      if k < e.1 then (k, v) :: e :: es
      else if k = e.1 then (k, v) :: es
      else e :: insertEntry k v es

/-- The value stored under a key, in a list of entries. -/
def lookupEntry (k : ℕ) : List (ℕ × V) → Option V
  | [] => none
  | e :: es => if e.1 = k then some e.2 else lookupEntry k es

/-- Removal of a key from a list of entries. -/
def removeEntry (k : ℕ) : List (ℕ × V) → List (ℕ × V)
  | [] => []
  | e :: es => if e.1 = k then es else e :: removeEntry k es

/-- Keys after an insertion are the old keys and the inserted one. -/
lemma key_insertEntry {k j : ℕ} {v : V} {es : List (ℕ × V)}
    (h : j ∈ (insertEntry k v es).map Prod.fst) : j = k ∨ j ∈ es.map Prod.fst := by
  induction es with
  | nil => simpa [insertEntry] using h
  | cons e es ih =>
      simp only [insertEntry] at h
      split at h
      · simpa using h
      · split at h
        · simp only [List.map_cons, List.mem_cons] at h ⊢
          tauto
        · simp only [List.map_cons, List.mem_cons] at h ⊢
          rcases h with h | h
          · exact Or.inr (Or.inl h)
          · have := ih h
            tauto

lemma key_removeEntry {k j : ℕ} {es : List (ℕ × V)}
    (h : j ∈ (removeEntry k es).map Prod.fst) : j ∈ es.map Prod.fst := by
  induction es with
  | nil => simp [removeEntry] at h
  | cons e es ih =>
      simp only [removeEntry] at h
      split at h
      · exact List.mem_cons_of_mem _ h
      · simp only [List.map_cons, List.mem_cons] at h ⊢
        exact h.imp_right ih

lemma sorted_insertEntry {k : ℕ} {v : V} {es : List (ℕ × V)}
    (h : (es.map Prod.fst).Pairwise (· < ·)) :
    ((insertEntry k v es).map Prod.fst).Pairwise (· < ·) := by
  induction es with
  | nil => simp [insertEntry]
  | cons e es ih =>
      rw [List.map_cons, List.pairwise_cons] at h
      simp only [insertEntry]
      split
      · rename_i hlt
        simp only [List.map_cons, List.pairwise_cons, List.mem_cons]
        refine ⟨?_, h⟩
        rintro j (rfl | hj)
        · exact hlt
        · exact Nat.lt_trans hlt (h.1 j hj)
      · split
        · rename_i heq
          simp only [List.map_cons, List.pairwise_cons]
          exact ⟨heq ▸ h.1, h.2⟩
        · rename_i hlt hne
          simp only [List.map_cons, List.pairwise_cons]
          refine ⟨fun j hj => ?_, ih h.2⟩
          rcases key_insertEntry hj with rfl | hj
          · omega
          · exact h.1 j hj

lemma sorted_removeEntry {k : ℕ} {es : List (ℕ × V)}
    (h : (es.map Prod.fst).Pairwise (· < ·)) :
    ((removeEntry k es).map Prod.fst).Pairwise (· < ·) := by
  induction es with
  | nil => simp [removeEntry]
  | cons e es ih =>
      rw [List.map_cons, List.pairwise_cons] at h
      simp only [removeEntry]
      split
      · exact h.2
      · simp only [List.map_cons, List.pairwise_cons]
        exact ⟨fun j hj => h.1 j (key_removeEntry hj), ih h.2⟩

/-- `BTreeMap::insert`. -/
def insert (m : BTreeMap V) (k : ℕ) (v : V) : BTreeMap V :=
  ⟨insertEntry k v m.entries, sorted_insertEntry m.sorted⟩

/-- `BTreeMap::remove`, without the removed value. -/
def remove (m : BTreeMap V) (k : ℕ) : BTreeMap V :=
  ⟨removeEntry k m.entries, sorted_removeEntry m.sorted⟩

/-- `BTreeMap::get`. -/
def get (m : BTreeMap V) (k : ℕ) : Option V := lookupEntry k m.entries

/-- `BTreeMap::len`. -/
def len (m : BTreeMap V) : ℕ := m.entries.length

/-- `BTreeMap::values`, in key order. -/
def values (m : BTreeMap V) : List V := m.entries.map Prod.snd

/-- `BTreeMap::keys`, in order. -/
def keys (m : BTreeMap V) : List ℕ := m.entries.map Prod.fst

/-! ### Lookup -/

/-- A key below every stored key is not found. -/
lemma lookupEntry_of_lt {k : ℕ} {es : List (ℕ × V)} (h : ∀ j ∈ es.map Prod.fst, k < j) :
    lookupEntry k es = none := by
  induction es with
  | nil => rfl
  | cons e es ih =>
      have he := h e.1 (by simp)
      rw [lookupEntry, if_neg (by omega)]
      exact ih fun j hj => h j (by simp only [List.map_cons, List.mem_cons]; exact Or.inr hj)

lemma lookupEntry_insertEntry (k j : ℕ) (v : V) (es : List (ℕ × V)) :
    lookupEntry j (insertEntry k v es) = if j = k then some v else lookupEntry j es := by
  induction es with
  | nil => simp [insertEntry, lookupEntry, eq_comm]
  | cons e es ih =>
      simp only [insertEntry]
      split
      · simp only [lookupEntry, eq_comm]
      · split
        · rename_i heq
          simp only [lookupEntry, ← heq, eq_comm (a := j)]
          split <;> simp_all
        · rename_i hne
          simp only [lookupEntry, ih]
          by_cases hj : j = k
          · rw [if_pos hj, if_pos hj, if_neg fun h => hne (by omega)]
          · rw [if_neg hj, if_neg hj]

lemma lookupEntry_removeEntry {k : ℕ} (j : ℕ) {es : List (ℕ × V)}
    (h : (es.map Prod.fst).Pairwise (· < ·)) :
    lookupEntry j (removeEntry k es) = if j = k then none else lookupEntry j es := by
  induction es with
  | nil => simp [removeEntry, lookupEntry]
  | cons e es ih =>
      rw [List.map_cons, List.pairwise_cons] at h
      simp only [removeEntry]
      split
      · rename_i heq
        subst heq
        by_cases hj : j = e.1
        · subst hj
          rw [if_pos rfl]
          exact lookupEntry_of_lt h.1
        · rw [if_neg hj, lookupEntry, if_neg fun h => hj h.symm]
      · simp only [lookupEntry, ih h.2]
        split <;> split <;> first | rfl | omega

@[simp] lemma get_empty (k : ℕ) : (empty : BTreeMap V).get k = none := rfl

@[simp] lemma get_insert (m : BTreeMap V) (k j : ℕ) (v : V) :
    (m.insert k v).get j = if j = k then some v else m.get j :=
  lookupEntry_insertEntry k j v m.entries

@[simp] lemma get_remove (m : BTreeMap V) (k j : ℕ) :
    (m.remove k).get j = if j = k then none else m.get j :=
  lookupEntry_removeEntry j m.sorted

/-- Sorted entries are determined by what is found in them. -/
lemma entries_ext {es es' : List (ℕ × V)} (h : (es.map Prod.fst).Pairwise (· < ·))
    (h' : (es'.map Prod.fst).Pairwise (· < ·)) (hget : ∀ k, lookupEntry k es = lookupEntry k es') :
    es = es' := by
  induction es generalizing es' with
  | nil =>
      cases es' with
      | nil => rfl
      | cons e' es' =>
          have hk := hget e'.1
          rw [lookupEntry, lookupEntry, if_pos rfl] at hk
          cases hk
  | cons e es ih =>
      cases es' with
      | nil =>
          have hk := hget e.1
          rw [lookupEntry, lookupEntry, if_pos rfl] at hk
          cases hk
      | cons e' es' =>
          rw [List.map_cons, List.pairwise_cons] at h h'
          -- the smaller of the two first keys would be missing on the other side
          have hkey : e.1 = e'.1 := by
            rcases Nat.lt_trichotomy e.1 e'.1 with hlt | heq | hlt
            · have hk := hget e.1
              rw [lookupEntry, if_pos rfl, lookupEntry, if_neg (by omega),
                lookupEntry_of_lt fun j hj => Nat.lt_trans hlt (h'.1 j hj)] at hk
              cases hk
            · exact heq
            · have hk := hget e'.1
              rw [lookupEntry, if_neg (by omega),
                lookupEntry_of_lt fun j hj => Nat.lt_trans hlt (h.1 j hj), lookupEntry, if_pos rfl] at hk
              cases hk
          have hvalue : e.2 = e'.2 := by
            have hk := hget e.1
            rw [lookupEntry, if_pos rfl, lookupEntry, if_pos hkey.symm, Option.some.injEq] at hk
            exact hk
          have htail : ∀ k, lookupEntry k es = lookupEntry k es' := by
            intro k
            by_cases hk : e.1 = k
            · subst hk
              rw [lookupEntry_of_lt h.1, lookupEntry_of_lt (hkey ▸ h'.1)]
            · have hk' := hget k
              rwa [lookupEntry, if_neg hk, lookupEntry, if_neg (hkey ▸ hk)] at hk'
          rw [ih h.2 h'.2 htail, Prod.ext hkey hvalue]

/-- **A map is what is found in it.** -/
theorem ext_get {m m' : BTreeMap V} (h : ∀ k, m.get k = m'.get k) : m = m' := by
  obtain ⟨es, hes⟩ := m
  obtain ⟨es', hes'⟩ := m'
  have heq : es = es' := entries_ext hes hes' h
  subst heq
  rfl

/-! ### What is found, and what is kept -/

/-- `retain`, for maps with an order and without: the entries that pass the test stay. -/
def retain (m : BTreeMap V) (f : ℕ → V → Bool) : BTreeMap V :=
  ⟨m.entries.filter fun e => f e.1 e.2, m.sorted.sublist (List.filter_sublist.map _)⟩

lemma lookupEntry_filter (f : ℕ → V → Bool) (k : ℕ) {es : List (ℕ × V)}
    (h : (es.map Prod.fst).Pairwise (· < ·)) :
    lookupEntry k (es.filter fun e => f e.1 e.2) = (lookupEntry k es).filter (f k) := by
  induction es with
  | nil => rfl
  | cons e es ih =>
      rw [List.map_cons, List.pairwise_cons] at h
      have htail := ih h.2
      by_cases hk : e.1 = k
      · subst hk
        have hnone : lookupEntry e.1 es = none := lookupEntry_of_lt h.1
        rw [hnone] at htail
        rw [lookupEntry, if_pos rfl, List.filter_cons, Option.filter_some]
        split_ifs with hf
        · rw [lookupEntry, if_pos rfl]
        · exact htail
      · rw [lookupEntry, if_neg hk, List.filter_cons]
        split_ifs
        · rw [lookupEntry, if_neg hk]
          exact htail
        · exact htail

@[simp] lemma get_retain (m : BTreeMap V) (f : ℕ → V → Bool) (k : ℕ) :
    (m.retain f).get k = (m.get k).filter (f k) := lookupEntry_filter f k m.sorted

lemma mem_of_lookupEntry {k : ℕ} {v : V} {es : List (ℕ × V)} (h : lookupEntry k es = some v) :
    (k, v) ∈ es := by
  induction es with
  | nil => cases h
  | cons e es ih =>
      rw [lookupEntry] at h
      split_ifs at h with hk
      · cases h
        subst hk
        exact List.mem_cons_self
      · exact List.mem_cons_of_mem e (ih h)

lemma mem_of_get {m : BTreeMap V} {k : ℕ} {v : V} (h : m.get k = some v) : (k, v) ∈ m.entries :=
  mem_of_lookupEntry h

lemma lookupEntry_of_mem {k : ℕ} {v : V} {es : List (ℕ × V)}
    (hs : (es.map Prod.fst).Pairwise (· < ·)) (h : (k, v) ∈ es) : lookupEntry k es = some v := by
  induction es with
  | nil => cases h
  | cons e es ih =>
      rw [List.map_cons, List.pairwise_cons] at hs
      rw [lookupEntry]
      rcases List.mem_cons.mp h with rfl | h
      · exact if_pos rfl
      · have hlt : e.1 < k := hs.1 k (List.mem_map.mpr ⟨(k, v), h, rfl⟩)
        rw [if_neg (Nat.ne_of_lt hlt)]
        exact ih hs.2 h

lemma get_of_mem {m : BTreeMap V} {k : ℕ} {v : V} (h : (k, v) ∈ m.entries) : m.get k = some v :=
  lookupEntry_of_mem m.sorted h

lemma mem_values {m : BTreeMap V} {v : V} : v ∈ m.values ↔ ∃ k, m.get k = some v := by
  rw [values, List.mem_map]
  constructor
  · rintro ⟨⟨k, v⟩, hmem, rfl⟩
    exact ⟨k, get_of_mem hmem⟩
  · rintro ⟨k, hget⟩
    exact ⟨(k, v), mem_of_get hget, rfl⟩

/-- The keys of the entries that meet a condition: each of them once. -/
lemma count_keys_filter (m : BTreeMap V) (f : V → Bool) (k : ℕ) :
    (((m.entries.filter fun e => f e.2).map Prod.fst).count k) =
      if (m.get k).any f then 1 else 0 := by
  have hsub := (List.filter_sublist (p := fun e => f e.2) (l := m.entries)).map Prod.fst
  have hnodup : (m.entries.map Prod.fst).Nodup := m.sorted.imp Nat.ne_of_lt
  have hmem : k ∈ (m.entries.filter fun e => f e.2).map Prod.fst ↔ (m.get k).any f = true := by
    rw [List.mem_map, Option.any_eq_true]
    constructor
    · rintro ⟨⟨j, v⟩, hfilter, rfl⟩
      obtain ⟨hentry, hf⟩ := List.mem_filter.mp hfilter
      exact ⟨v, get_of_mem hentry, hf⟩
    · rintro ⟨v, hget, hf⟩
      exact ⟨(k, v), List.mem_filter.mpr ⟨mem_of_get hget, hf⟩, rfl⟩
  split_ifs with hany
  · exact List.count_eq_one_of_mem (hsub.nodup hnodup) (hmem.mpr hany)
  · exact List.count_eq_zero.mpr fun h => hany (hmem.mp h)

/-! ### Sums over the values -/

/-- The sum of `f` over a list of entries. -/
def weightEntry (f : V → ℕ) (es : List (ℕ × V)) : ℕ := (es.map fun e => f e.2).sum

/-- The sum of `f` over the values. -/
def weight (f : V → ℕ) (m : BTreeMap V) : ℕ := weightEntry f m.entries

lemma weight_eq_sum_values (f : V → ℕ) (m : BTreeMap V) : m.weight f = (m.values.map f).sum := by
  simp [weight, weightEntry, values, Function.comp_def]

lemma len_eq_weight (m : BTreeMap V) : m.len = m.weight fun _ => 1 := by
  simp [len, weight, weightEntry]

@[simp] lemma weight_empty (f : V → ℕ) : (empty : BTreeMap V).weight f = 0 := rfl

lemma weightEntry_insertEntry (f : V → ℕ) (k : ℕ) (v : V) {es : List (ℕ × V)}
    (h : (es.map Prod.fst).Pairwise (· < ·)) :
    weightEntry f (insertEntry k v es) + (lookupEntry k es).elim 0 f = weightEntry f es + f v := by
  induction es with
  | nil => simp [insertEntry, lookupEntry, weightEntry]
  | cons e es ih =>
      rw [List.map_cons, List.pairwise_cons] at h
      have ih := ih h.2
      simp only [weightEntry] at ih ⊢
      simp only [insertEntry]
      split
      · rename_i hlt
        have hn : lookupEntry k es = none :=
          lookupEntry_of_lt fun j hj => Nat.lt_trans hlt (h.1 j hj)
        rw [lookupEntry, if_neg (by omega), hn]
        simp only [List.map_cons, List.sum_cons, Option.elim_none]
        omega
      · split
        · rename_i heq
          rw [lookupEntry, if_pos heq.symm]
          simp only [List.map_cons, List.sum_cons, Option.elim_some]
          omega
        · rename_i hne
          rw [lookupEntry, if_neg fun h => hne h.symm]
          simp only [List.map_cons, List.sum_cons]
          omega

lemma weightEntry_removeEntry (f : V → ℕ) (k : ℕ) (es : List (ℕ × V)) :
    weightEntry f (removeEntry k es) + (lookupEntry k es).elim 0 f = weightEntry f es := by
  induction es with
  | nil => simp [removeEntry, lookupEntry, weightEntry]
  | cons e es ih =>
      simp only [weightEntry] at ih ⊢
      simp only [removeEntry, lookupEntry]
      split
      · simp only [List.map_cons, List.sum_cons, Option.elim_some]
        omega
      · simp only [List.map_cons, List.sum_cons]
        omega

/-- **An insertion** adds the new value and takes out what it overwrites. -/
theorem weight_insert (f : V → ℕ) (m : BTreeMap V) (k : ℕ) (v : V) :
    (m.insert k v).weight f + (m.get k).elim 0 f = m.weight f + f v :=
  weightEntry_insertEntry f k v m.sorted

/-- **A removal** takes out the value stored under the key. -/
theorem weight_remove (f : V → ℕ) (m : BTreeMap V) (k : ℕ) :
    (m.remove k).weight f + (m.get k).elim 0 f = m.weight f :=
  weightEntry_removeEntry f k m.entries

/-- A map without keys weighs nothing. -/
lemma weight_of_get_none (f : V → ℕ) {m : BTreeMap V} (h : ∀ k, m.get k = none) :
    m.weight f = 0 := by
  cases hm : m.entries with
  | nil => simp [weight, weightEntry, hm]
  | cons e es =>
      have := h e.1
      simp [get, hm, lookupEntry] at this

end BTreeMap

end Jackstay
