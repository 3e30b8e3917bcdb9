import Mathlib.Data.List.Induction
import Mathlib.Data.String.Basic
import Mathlib.Order.Defs.LinearOrder

/-!
Finite maps over any linearly ordered type of keys, as their entries in ascending
order, for the maps that are built from entries and written out again.

* `OrderedMap.insert`, `get`, `collect`: insertion, lookup, and the map that the
  entries of a list make when they are inserted one after the other;
* `collect_entries`: a map is what its own entries make;
* `mem_collect`: no key comes into a map but from the entries.
-/

namespace Jackstay

/-- A finite map, as its entries in ascending order of their keys. -/
structure OrderedMap (K V : Type*) [LinearOrder K] where
  entries : List (K × V)
  sorted : entries.Pairwise fun e e' => e.1 < e'.1

namespace OrderedMap

variable {K V : Type*} [LinearOrder K]

@[ext] lemma ext {m m' : OrderedMap K V} (h : m.entries = m'.entries) : m = m' := by
  cases m
  cases m'
  simpa using h

/-- The empty map. -/
def empty : OrderedMap K V := ⟨[], .nil⟩

/-- Insertion into entries in ascending order; an existing key is overwritten. -/
def insertEntry (k : K) (v : V) : List (K × V) → List (K × V)
  | [] => [(k, v)]
  | e :: es =>
      if k < e.1 then (k, v) :: e :: es
      else if k = e.1 then (k, v) :: es
      else e :: insertEntry k v es

/-- The entries after an insertion are old ones and the inserted one. -/
lemma mem_insertEntry {k : K} {v : V} {e : K × V} {es : List (K × V)}
    (h : e ∈ insertEntry k v es) : e = (k, v) ∨ e ∈ es := by
  induction es with
  | nil => exact .inl (List.mem_singleton.mp h)
  | cons e' es ih =>
      rw [insertEntry] at h
      split_ifs at h
      · exact List.mem_cons.mp h
      · exact (List.mem_cons.mp h).imp_right (List.mem_cons_of_mem e')
      · rcases List.mem_cons.mp h with rfl | htail
        · exact .inr List.mem_cons_self
        · exact (ih htail).imp_right (List.mem_cons_of_mem e')

lemma sorted_insertEntry {k : K} {v : V} {es : List (K × V)}
    (h : es.Pairwise fun e e' => e.1 < e'.1) :
    (insertEntry k v es).Pairwise fun e e' => e.1 < e'.1 := by
  induction es with
  | nil => exact List.pairwise_singleton _ _
  | cons e es ih =>
      obtain ⟨hfirst, hrest⟩ := List.pairwise_cons.mp h
      rw [insertEntry]
      split_ifs with hlt heq
      · refine List.pairwise_cons.mpr ⟨fun e' he' => ?_, h⟩
        rcases List.mem_cons.mp he' with rfl | htail
        · exact hlt
        · exact hlt.trans (hfirst e' htail)
      · exact List.pairwise_cons.mpr ⟨fun e' he' => heq ▸ hfirst e' he', hrest⟩
      · refine List.pairwise_cons.mpr ⟨fun e' he' => ?_, ih hrest⟩
        rcases mem_insertEntry he' with rfl | htail
        · exact lt_of_le_of_ne (not_lt.mp hlt) (Ne.symm heq)
        · exact hfirst e' htail

/-- Insertion. -/
def insert (m : OrderedMap K V) (k : K) (v : V) : OrderedMap K V :=
  ⟨insertEntry k v m.entries, sorted_insertEntry m.sorted⟩

/-- Lookup. -/
def get (m : OrderedMap K V) (k : K) : Option V := m.entries.lookup k

/-- The map that entries make, inserted one after the other. -/
def collect (es : List (K × V)) : OrderedMap K V :=
  es.foldl (fun m e => m.insert e.1 e.2) empty

/-- A key above all others goes to the end. -/
lemma insertEntry_of_lt {k : K} {v : V} {es : List (K × V)} (h : ∀ e ∈ es, e.1 < k) :
    insertEntry k v es = es ++ [(k, v)] := by
  induction es with
  | nil => rfl
  | cons e es ih =>
      have hlt : e.1 < k := h e List.mem_cons_self
      rw [insertEntry, if_neg (not_lt.mpr hlt.le), if_neg hlt.ne', List.cons_append,
        ih fun e' he' => h e' (List.mem_cons_of_mem e he')]

/-- Entries in ascending order are those of the map that they make. -/
lemma entries_collect {es : List (K × V)} (h : es.Pairwise fun e e' => e.1 < e'.1) :
    (collect es).entries = es := by
  induction es using List.reverseRecOn with
  | nil => rfl
  | append_singleton es e ih =>
      obtain ⟨hes, -, hlast⟩ := List.pairwise_append.mp h
      have hcollect : collect (es ++ [e]) = (collect es).insert e.1 e.2 := by
        rw [collect, List.foldl_append]
        rfl
      have hold : (collect es).entries = es := ih hes
      rw [hcollect]
      show insertEntry e.1 e.2 (collect es).entries = es ++ [e]
      rw [hold]
      exact insertEntry_of_lt fun e' he' => hlast e' he' e (List.mem_singleton.mpr rfl)

/-- **A map is what its entries make.** -/
lemma collect_entries (m : OrderedMap K V) : collect m.entries = m :=
  ext (entries_collect m.sorted)

/-- The entries of a map that a list makes are entries of the list. -/
lemma mem_collect {es : List (K × V)} {e : K × V} (h : e ∈ (collect es).entries) : e ∈ es := by
  induction es using List.reverseRecOn with
  | nil => cases h
  | append_singleton es e' ih =>
      rw [collect, List.foldl_append] at h
      rcases mem_insertEntry h with rfl | hold
      · exact List.mem_append_right es (List.mem_singleton.mpr rfl)
      · exact List.mem_append_left _ (ih hold)

end OrderedMap

end Jackstay
