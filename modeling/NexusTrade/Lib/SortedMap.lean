import Mathlib.Order.Defs.LinearOrder
import Mathlib.Data.List.Pairwise
import Mathlib.Data.List.Basic
import Mathlib.Algebra.BigOperators.Group.List.Basic
import Mathlib.Tactic.Linarith

/-!
# Finite maps in canonical form

A finite map over a linearly ordered key type, kept as the list of its entries in strictly
increasing key order.  The order is a field of the structure, so every map is canonical:

* **extensionality** (`SortedMap.ext_find`): two maps with the same lookups are equal, which makes
  the structure a model of hash maps as well as of ordered maps;
* **iteration is the entry list**, so folds over a map in key order are folds over a list;
* the ends of the map (`first`, `last`) are the ends of the list.

The lookup lemmas (`find_insert`, `find_erase`, `find_modify`, `find_filter`) are the interface the
users of the library reason with; the list lemmas at the end expose the first and the last entry.
-/

universe u v w

/-- A finite map, as its entries in strictly increasing key order. -/
structure SortedMap (κ : Type u) (ν : Type v) [LinearOrder κ] where
  entries : List (κ × ν)
  sorted : entries.Pairwise fun a b => a.1 < b.1

namespace SortedMap

variable {κ : Type u} {ν : Type v} {μ : Type w} [LinearOrder κ]

instance [DecidableEq ν] : DecidableEq (SortedMap κ ν) := fun m n =>
  decidable_of_iff (m.entries = n.entries) ⟨fun h => by cases m; cases n; congr, fun h => by rw [h]⟩

/-! ### Operations -/

/-- The map without entries. -/
def empty : SortedMap κ ν := ⟨[], List.Pairwise.nil⟩

instance : Inhabited (SortedMap κ ν) := ⟨empty⟩

/-- The value at a key. -/
def find (m : SortedMap κ ν) (k : κ) : Option ν := (m.entries.find? fun e => e.1 = k).map Prod.snd

/-- Whether a key is present. -/
def contains (m : SortedMap κ ν) (k : κ) : Bool := (m.find k).isSome

/-- The number of entries. -/
def size (m : SortedMap κ ν) : ℕ := m.entries.length

/-- The keys in increasing order. -/
def keys (m : SortedMap κ ν) : List κ := m.entries.map Prod.fst

/-- The values in increasing key order. -/
def values (m : SortedMap κ ν) : List ν := m.entries.map Prod.snd

/-- The entry with the least key. -/
def first (m : SortedMap κ ν) : Option (κ × ν) := m.entries.head?

/-- The entry with the greatest key. -/
def last (m : SortedMap κ ν) : Option (κ × ν) := m.entries.getLast?

/-- Ordered insertion into an entry list; an equal key is overwritten. -/
def insertEntry (k : κ) (x : ν) : List (κ × ν) → List (κ × ν)
  | [] => [(k, x)]
  | e :: es =>
      if k < e.1 then (k, x) :: e :: es
      else if k = e.1 then (k, x) :: es
      else e :: insertEntry k x es

theorem mem_insertEntry {k : κ} {x : ν} {a : κ × ν} {es : List (κ × ν)}
    (h : a ∈ insertEntry k x es) : a = (k, x) ∨ a ∈ es := by
  induction es with
  | nil => simpa [insertEntry] using h
  | cons e es ih =>
      rw [insertEntry] at h
      split_ifs at h with hlt heq
      · exact List.mem_cons.mp h
      · exact (List.mem_cons.mp h).imp id (List.mem_cons_of_mem e)
      · rcases List.mem_cons.mp h with rfl | h
        · exact Or.inr List.mem_cons_self
        · exact (ih h).imp id (List.mem_cons_of_mem e)

theorem insertEntry_sorted (k : κ) (x : ν) {es : List (κ × ν)}
    (h : es.Pairwise fun a b => a.1 < b.1) :
    (insertEntry k x es).Pairwise fun a b => a.1 < b.1 := by
  induction es with
  | nil => simp [insertEntry]
  | cons e es ih =>
      obtain ⟨hhead, htail⟩ := List.pairwise_cons.mp h
      rw [insertEntry]
      split_ifs with hlt heq
      · refine List.pairwise_cons.mpr ⟨fun a ha => ?_, h⟩
        rcases List.mem_cons.mp ha with rfl | ha
        · exact hlt
        · exact hlt.trans (hhead a ha)
      · exact List.pairwise_cons.mpr ⟨fun a ha => heq ▸ hhead a ha, htail⟩
      · refine List.pairwise_cons.mpr ⟨fun a ha => ?_, ih htail⟩
        rcases mem_insertEntry ha with rfl | ha
        · exact lt_of_le_of_ne (not_lt.mp hlt) (Ne.symm heq)
        · exact hhead a ha

/-- Set the value at a key. -/
def insert (m : SortedMap κ ν) (k : κ) (x : ν) : SortedMap κ ν :=
  ⟨insertEntry k x m.entries, insertEntry_sorted k x m.sorted⟩

/-- Keep the entries a predicate accepts. -/
def filter (m : SortedMap κ ν) (p : κ → ν → Bool) : SortedMap κ ν :=
  ⟨m.entries.filter fun e => p e.1 e.2, m.sorted.sublist List.filter_sublist⟩

/-- Remove a key. -/
def erase (m : SortedMap κ ν) (k : κ) : SortedMap κ ν := m.filter fun k' _ => k' ≠ k

/-- Rewrite the value at a key; nothing happens where the key is absent. -/
def modify (m : SortedMap κ ν) (k : κ) (f : ν → ν) : SortedMap κ ν :=
  ⟨m.entries.map fun e => if e.1 = k then (e.1, f e.2) else e, by
    rw [List.pairwise_map]
    refine m.sorted.imp fun {a b} h => ?_
    split_ifs <;> exact h⟩

/-- Rewrite every value. -/
def mapValues (m : SortedMap κ ν) (f : ν → μ) : SortedMap κ μ :=
  ⟨m.entries.map fun e => (e.1, f e.2), by rw [List.pairwise_map]; exact m.sorted⟩

/-! ### Lookups -/

theorem mem_entries_iff (m : SortedMap κ ν) (k : κ) (x : ν) :
    (k, x) ∈ m.entries ↔ m.find k = some x := by
  obtain ⟨es, hs⟩ := m
  simp only [find]
  induction es with
  | nil => simp
  | cons e es ih =>
      obtain ⟨hhead, htail⟩ := List.pairwise_cons.mp hs
      by_cases he : e.1 = k
      · subst he
        simp only [List.mem_cons, List.find?_cons, decide_true, Option.map_some, Option.some.injEq]
        constructor
        · rintro (h | h)
          · rw [← h]
          · exact absurd (hhead _ h) (lt_irrefl _)
        · rintro rfl
          exact Or.inl rfl
      · simp only [List.mem_cons, List.find?_cons, he, decide_false]
        rw [← ih htail]
        constructor
        · rintro (rfl | h)
          · exact absurd rfl he
          · exact h
        · exact Or.inr

theorem find_eq_none_iff (m : SortedMap κ ν) (k : κ) :
    m.find k = none ↔ ∀ x, (k, x) ∉ m.entries := by
  constructor
  · intro h x hx
    rw [mem_entries_iff, h] at hx
    cases hx
  · intro h
    cases hf : m.find k with
    | none => rfl
    | some x => exact absurd ((m.mem_entries_iff k x).mpr hf) (h x)

/-- **Lookups determine lookups through membership.**  The rule every lookup lemma below uses. -/
theorem find_congr {m : SortedMap κ ν} {k : κ} {o : Option ν}
    (h : ∀ x, (k, x) ∈ m.entries ↔ o = some x) : m.find k = o := by
  cases o with
  | none => exact (m.find_eq_none_iff k).mpr fun x hx => by cases (h x).mp hx
  | some x => exact (m.mem_entries_iff k x).mp ((h x).mpr rfl)

/-- **Maps are canonical.**  Two maps with the same lookups are the same map. -/
theorem ext_find {m n : SortedMap κ ν} (h : ∀ k, m.find k = n.find k) : m = n := by
  have hmem : ∀ e, e ∈ m.entries ↔ e ∈ n.entries := fun ⟨k, x⟩ => by
    rw [mem_entries_iff, mem_entries_iff, h]
  have hentries : m.entries = n.entries := by
    refine @List.Perm.eq_of_pairwise _ (fun a b => a.1 < b.1) _ _ ?_ m.sorted n.sorted ?_
    · intro a b _ _ hab hba
      exact absurd hba (lt_asymm hab)
    · refine (List.perm_ext_iff_of_nodup ?_ ?_).mpr hmem
      · exact m.sorted.imp fun {a b} hab => fun e => absurd (e ▸ hab) (lt_irrefl _)
      · exact n.sorted.imp fun {a b} hab => fun e => absurd (e ▸ hab) (lt_irrefl _)
  cases m
  cases n
  simp only at hentries
  subst hentries
  rfl

@[simp] theorem find_empty (k : κ) : (empty : SortedMap κ ν).find k = none := rfl

theorem mem_insertEntry_iff {k k' : κ} {x y : ν} {es : List (κ × ν)}
    (hs : es.Pairwise fun a b => a.1 < b.1) :
    (k', y) ∈ insertEntry k x es ↔ if k' = k then y = x else (k', y) ∈ es := by
  induction es with
  | nil =>
      by_cases hk : k' = k <;> simp [insertEntry, hk]
  | cons e es ih =>
      obtain ⟨hhead, htail⟩ := List.pairwise_cons.mp hs
      have ih := ih htail
      rw [insertEntry]
      by_cases hk : k' = k
      · subst hk
        have hnot : ∀ y, e.1 ≥ k' → (k', y) ∉ es := fun y hge hy =>
          absurd (hhead _ hy) (not_lt.mpr hge)
        simp only [if_true] at ih ⊢
        split_ifs with hlt heq
        · have hne : (k', y) ≠ e := fun h => absurd (h ▸ hlt) (lt_irrefl _)
          simp [hne, hnot y hlt.le]
        · simp [hnot y heq.symm.ge]
        · have hne : (k', y) ≠ e := fun h => heq (h ▸ rfl)
          simp [hne, ih]
      · simp only [hk, if_false] at ih ⊢
        split_ifs with hlt heq
        · simp [hk]
        · have hne : (k', y) ≠ e := fun h => hk (heq ▸ h ▸ rfl)
          simp [hk, hne]
        · simp [ih]

@[simp] theorem find_insert (m : SortedMap κ ν) (k k' : κ) (x : ν) :
    (m.insert k x).find k' = if k' = k then some x else m.find k' := by
  refine find_congr fun y => ?_
  rw [insert, mem_insertEntry_iff m.sorted]
  split_ifs
  · exact ⟨fun h => h ▸ rfl, fun h => (Option.some.inj h).symm⟩
  · exact m.mem_entries_iff k' y

theorem insert_insert (m : SortedMap κ ν) (k : κ) (x y : ν) :
    (m.insert k x).insert k y = m.insert k y := by
  refine ext_find fun k' => ?_
  simp only [find_insert]
  split <;> rfl

@[simp] theorem find_filter (m : SortedMap κ ν) (p : κ → ν → Bool) (k : κ) :
    (m.filter p).find k = (m.find k).filter (p k) := by
  refine find_congr fun y => ?_
  simp only [filter, List.mem_filter, mem_entries_iff, Option.filter_eq_some_iff]

@[simp] theorem find_erase (m : SortedMap κ ν) (k k' : κ) :
    (m.erase k).find k' = if k' = k then none else m.find k' := by
  rw [erase, find_filter]
  split_ifs with h
  · cases m.find k' <;> simp [Option.filter, h]
  · cases m.find k' <;> simp [Option.filter, h]

@[simp] theorem find_modify (m : SortedMap κ ν) (k k' : κ) (f : ν → ν) :
    (m.modify k f).find k' = if k' = k then (m.find k').map f else m.find k' := by
  refine find_congr fun y => ?_
  simp only [modify, List.mem_map]
  constructor
  · rintro ⟨⟨a, x⟩, hx, he⟩
    by_cases ha : a = k
    · simp only [ha, if_true, Prod.mk.injEq] at he
      obtain ⟨rfl, rfl⟩ := he
      subst ha
      simp [(m.mem_entries_iff _ _).mp hx]
    · simp only [ha, if_false, Prod.mk.injEq] at he
      obtain ⟨rfl, rfl⟩ := he
      simp [ha, (m.mem_entries_iff _ _).mp hx]
  · intro h
    by_cases hk : k' = k
    · simp only [hk, if_true, Option.map_eq_some_iff] at h
      obtain ⟨x, hx, rfl⟩ := h
      exact ⟨(k, x), (m.mem_entries_iff _ _).mpr hx, by simp [hk]⟩
    · simp only [hk, if_false] at h
      exact ⟨(k', y), (m.mem_entries_iff _ _).mpr h, by simp [hk]⟩

@[simp] theorem find_mapValues (m : SortedMap κ ν) (f : ν → μ) (k : κ) :
    (m.mapValues f).find k = (m.find k).map f := by
  refine find_congr fun y => ?_
  simp only [mapValues, List.mem_map, Prod.mk.injEq, Prod.exists, Option.map_eq_some_iff]
  constructor
  · rintro ⟨a, x, hx, rfl, rfl⟩
    exact ⟨x, (m.mem_entries_iff _ _).mp hx, rfl⟩
  · rintro ⟨x, hx, rfl⟩
    exact ⟨k, x, (m.mem_entries_iff _ _).mpr hx, rfl, rfl⟩

theorem contains_iff (m : SortedMap κ ν) (k : κ) : m.contains k = true ↔ ∃ x, m.find k = some x :=
  Option.isSome_iff_exists

theorem contains_eq_false_iff (m : SortedMap κ ν) (k : κ) :
    m.contains k = false ↔ m.find k = none := by
  simp [contains]

theorem mem_values_iff (m : SortedMap κ ν) (x : ν) : x ∈ m.values ↔ ∃ k, m.find k = some x := by
  simp only [values, List.mem_map, Prod.exists, exists_eq_right, mem_entries_iff]

/-! ### The first and the last entry -/

theorem entries_of_first {m : SortedMap κ ν} {e : κ × ν} (h : m.first = some e) :
    ∃ es, m.entries = e :: es := by
  cases hm : m.entries with
  | nil => simp [first, hm] at h
  | cons a es => exact ⟨es, by simp [first, hm] at h; rw [h]⟩

theorem entries_of_last {m : SortedMap κ ν} {e : κ × ν} (h : m.last = some e) :
    ∃ es, m.entries = es ++ [e] := by
  obtain ⟨es, hes⟩ := List.getLast?_eq_some_iff.mp h
  exact ⟨es, hes⟩

theorem first_eq_none_iff (m : SortedMap κ ν) : m.first = none ↔ m.entries = [] :=
  List.head?_eq_none_iff

theorem last_eq_none_iff (m : SortedMap κ ν) : m.last = none ↔ m.entries = [] :=
  List.getLast?_eq_none_iff

theorem find_of_first {m : SortedMap κ ν} {k : κ} {x : ν} (h : m.first = some (k, x)) :
    m.find k = some x := by
  obtain ⟨es, hes⟩ := entries_of_first h
  rw [← mem_entries_iff, hes]
  exact List.mem_cons_self

theorem find_of_last {m : SortedMap κ ν} {k : κ} {x : ν} (h : m.last = some (k, x)) :
    m.find k = some x := by
  obtain ⟨es, hes⟩ := entries_of_last h
  rw [← mem_entries_iff, hes]
  simp

/-- Every key is at least the first one. -/
theorem first_le {m : SortedMap κ ν} {k k' : κ} {x x' : ν} (h : m.first = some (k, x))
    (h' : m.find k' = some x') : k ≤ k' := by
  obtain ⟨es, hes⟩ := entries_of_first h
  have hmem := (m.mem_entries_iff k' x').mpr h'
  have hs := m.sorted
  rw [hes] at hmem hs
  rcases List.mem_cons.mp hmem with he | hmem
  · exact le_of_eq (Prod.mk.inj he).1.symm
  · exact ((List.pairwise_cons.mp hs).1 _ hmem).le

/-- Every key is at most the last one. -/
theorem le_last {m : SortedMap κ ν} {k k' : κ} {x x' : ν} (h : m.last = some (k, x))
    (h' : m.find k' = some x') : k' ≤ k := by
  obtain ⟨es, hes⟩ := entries_of_last h
  have hmem := (m.mem_entries_iff k' x').mpr h'
  have hs := m.sorted
  rw [hes] at hmem hs
  rcases List.mem_append.mp hmem with hmem | he
  · exact ((List.pairwise_append.mp hs).2.2 _ hmem _ (List.mem_singleton_self _)).le
  · exact le_of_eq (Prod.mk.inj (List.mem_singleton.mp he)).1

/-! ### Rewriting and removing one entry, on the entry list -/

theorem ne_of_split {m : SortedMap κ ν} {pre post : List (κ × ν)} {k : κ} {x : ν}
    (h : m.entries = pre ++ (k, x) :: post) : (∀ e ∈ pre, e.1 ≠ k) ∧ ∀ e ∈ post, e.1 ≠ k := by
  have hs := m.sorted
  rw [h, List.pairwise_append, List.pairwise_cons] at hs
  exact ⟨fun e he => (hs.2.2 e he _ List.mem_cons_self).ne, fun e he => (hs.2.1.1 e he).ne'⟩

/-- A key has one entry, or none. -/
theorem filter_entries (m : SortedMap κ ν) (k : κ) :
    m.entries.filter (fun e => e.1 = k) = (m.find k).toList.map fun x => (k, x) := by
  have hgone : ∀ es : List (κ × ν), (∀ e ∈ es, e.1 ≠ k) → es.filter (fun e => e.1 = k) = [] :=
    fun es h => List.filter_eq_nil_iff.mpr fun e he => by simp [h e he]
  cases hk : m.find k with
  | none =>
      refine hgone _ fun e he heq => (find_eq_none_iff m k).mp hk e.2 ?_
      rw [← heq]
      exact he
  | some x =>
      obtain ⟨pre, post, hsplit⟩ := List.append_of_mem ((mem_entries_iff m k x).mpr hk)
      obtain ⟨hpre, hpost⟩ := ne_of_split hsplit
      rw [hsplit, List.filter_append, List.filter_cons_of_pos (by simp), hgone pre hpre, hgone post hpost]
      rfl

theorem entries_modify {m : SortedMap κ ν} {pre post : List (κ × ν)} {k : κ} {x : ν}
    (h : m.entries = pre ++ (k, x) :: post) (f : ν → ν) :
    (m.modify k f).entries = pre ++ (k, f x) :: post := by
  obtain ⟨hpre, hpost⟩ := ne_of_split h
  have hfix : ∀ es : List (κ × ν), (∀ e ∈ es, e.1 ≠ k) →
      (es.map fun e => if e.1 = k then (e.1, f e.2) else e) = es := fun es hes =>
    (List.map_congr_left fun e he => if_neg (hes e he)).trans (List.map_id' es)
  simp only [modify, h, List.map_append, List.map_cons, if_true, hfix pre hpre, hfix post hpost]

theorem entries_erase {m : SortedMap κ ν} {pre post : List (κ × ν)} {k : κ} {x : ν}
    (h : m.entries = pre ++ (k, x) :: post) : (m.erase k).entries = pre ++ post := by
  obtain ⟨hpre, hpost⟩ := ne_of_split h
  have hfix : ∀ es : List (κ × ν), (∀ e ∈ es, e.1 ≠ k) →
      (es.filter fun e => decide (e.1 ≠ k)) = es := fun es hes =>
    List.filter_eq_self.mpr fun e he => decide_eq_true (hes e he)
  simp only [erase, filter, h, List.filter_append, List.filter_cons, ne_eq, not_true_eq_false,
    decide_false, Bool.false_eq_true, if_false]
  rw [hfix pre hpre, hfix post hpost]

/-- An insertion puts one entry in place of the one of its key, if there is one. -/
theorem entries_insert (m : SortedMap κ ν) (k : κ) (x : ν) :
    ∃ pre post, (m.insert k x).entries = pre ++ (k, x) :: post ∧
      m.entries = pre ++ ((m.find k).toList.map fun y => (k, y)) ++ post := by
  have hfind : (m.insert k x).find k = some x := by rw [find_insert, if_pos rfl]
  obtain ⟨pre, post, hsplit⟩ := List.append_of_mem ((mem_entries_iff _ k x).mpr hfind)
  refine ⟨pre, post, hsplit, ?_⟩
  cases hk : m.find k with
  | none =>
      have hm : m = (m.insert k x).erase k := ext_find fun k' => by
        rw [find_erase, find_insert]
        by_cases hkey : k' = k
        · rw [if_pos hkey, hkey, hk]
        · rw [if_neg hkey, if_neg hkey]
      rw [hm, entries_erase hsplit]
      exact congrArg (· ++ post) (List.append_nil pre).symm
  | some y =>
      have hm : m = (m.insert k x).modify k fun _ => y := ext_find fun k' => by
        rw [find_modify, find_insert]
        by_cases hkey : k' = k
        · rw [if_pos hkey, if_pos hkey, hkey, hk]
          rfl
        · rw [if_neg hkey, if_neg hkey]
      rw [hm, entries_modify hsplit]
      exact (List.append_assoc pre [(k, y)] post).symm

/-! ### Collecting entries -/

/-- Insert entries one after another; a later one replaces an earlier one of the same key. -/
def insertAll (m : SortedMap κ ν) (entries : List (κ × ν)) : SortedMap κ ν :=
  entries.foldl (fun m e => m.insert e.1 e.2) m

/-- Collect entries into a map. -/
def collect (entries : List (κ × ν)) : SortedMap κ ν := insertAll empty entries

@[simp] theorem insertAll_nil (m : SortedMap κ ν) : m.insertAll [] = m := rfl

@[simp] theorem insertAll_cons (m : SortedMap κ ν) (e : κ × ν) (es : List (κ × ν)) :
    m.insertAll (e :: es) = (m.insert e.1 e.2).insertAll es := rfl

@[simp] theorem insertAll_append (m : SortedMap κ ν) (es es' : List (κ × ν)) :
    m.insertAll (es ++ es') = (m.insertAll es).insertAll es' :=
  List.foldl_append

theorem find_insertAll (entries : List (κ × ν)) (m : SortedMap κ ν) (k : κ) :
    (m.insertAll entries).find k
      = ((entries.reverse.find? fun e => e.1 = k).map Prod.snd).or (m.find k) := by
  induction entries generalizing m with
  | nil => rfl
  | cons e es ih =>
      rw [insertAll_cons, ih, List.reverse_cons, List.find?_append, find_insert]
      cases hfind : es.reverse.find? (fun e => decide (e.1 = k)) with
      | some x => rfl
      | none =>
          by_cases hk : k = e.1
          · simp [hk]
          · simp [hk, Ne.symm hk]

/-- Collecting the entries of a map gives the map. -/
theorem collect_entries (m : SortedMap κ ν) :
    collect m.entries = m := by
  refine ext_find fun k => ?_
  rw [collect, find_insertAll, find_empty, Option.or_none]
  cases hfind : m.entries.reverse.find? (fun e => decide (e.1 = k)) with
  | none =>
      refine ((find_eq_none_iff m k).mpr fun x hx => ?_).symm
      have hno := List.find?_eq_none.mp hfind (k, x) (List.mem_reverse.mpr hx)
      simp at hno
  | some e =>
      have hmem := List.mem_reverse.mp (List.mem_of_find?_eq_some hfind)
      have hkey := List.find?_some hfind
      rw [decide_eq_true_eq] at hkey
      rw [← hkey]
      exact ((mem_entries_iff m e.1 e.2).mp hmem).symm

/-- What is collected under a key: the value all its entries have. -/
theorem find_collect {entries : List (κ × ν)} {k : κ} {x : ν} (hmem : (k, x) ∈ entries)
    (hall : ∀ e ∈ entries, e.1 = k → x = e.2) : (collect entries).find k = some x := by
  rw [collect, find_insertAll, find_empty, Option.or_none]
  cases hfind : entries.reverse.find? (fun e => decide (e.1 = k)) with
  | none =>
      have hno := List.find?_eq_none.mp hfind (k, x) (List.mem_reverse.mpr hmem)
      simp at hno
  | some e =>
      have hin := List.mem_reverse.mp (List.mem_of_find?_eq_some hfind)
      have hkey := List.find?_some hfind
      rw [decide_eq_true_eq] at hkey
      rw [hall e hin hkey]
      rfl

/-- A key without an entry is not collected. -/
theorem find_collect_none {entries : List (κ × ν)} {k : κ} (hall : ∀ e ∈ entries, e.1 ≠ k) :
    (collect entries).find k = none := by
  rw [collect, find_insertAll, find_empty, Option.or_none, Option.map_eq_none_iff,
    List.find?_eq_none]
  intro e he
  rw [decide_eq_true_eq]
  exact hall e (List.mem_reverse.mp he)

/-! ### Size -/

theorem length_insertEntry_le (k : κ) (x : ν) (es : List (κ × ν)) :
    (insertEntry k x es).length ≤ es.length + 1 := by
  induction es with
  | nil => exact le_refl _
  | cons e es ih =>
      rw [insertEntry]
      split_ifs
      · exact le_refl _
      · exact Nat.le_succ _
      · exact Nat.succ_le_succ ih

theorem size_insert_le (m : SortedMap κ ν) (k : κ) (x : ν) : (m.insert k x).size ≤ m.size + 1 :=
  length_insertEntry_le k x m.entries

/-- Erasing a present key lowers the size by one. -/
theorem size_erase {m : SortedMap κ ν} {k : κ} {x : ν} (h : m.find k = some x) :
    (m.erase k).size + 1 = m.size := by
  obtain ⟨pre, post, hsplit⟩ := List.append_of_mem ((mem_entries_iff m k x).mpr h)
  rw [size, size, entries_erase hsplit, hsplit, List.length_append, List.length_append,
    List.length_cons]
  omega

/-- A key that is not present raises the size by one. -/
theorem size_insert {m : SortedMap κ ν} {k : κ} (h : m.find k = none) (x : ν) :
    (m.insert k x).size = m.size + 1 := by
  have hback : (m.insert k x).erase k = m := by
    refine ext_find fun k' => ?_
    rw [find_erase, find_insert]
    split_ifs with hk
    · rw [hk, h]
    · rfl
  have herase := size_erase (m := m.insert k x) (k := k) (x := x) (by rw [find_insert, if_pos rfl])
  rw [hback] at herase
  exact herase.symm

theorem mem_keys_iff (m : SortedMap κ ν) (k : κ) : k ∈ m.keys ↔ m.contains k = true := by
  rw [contains_iff, keys, List.mem_map]
  constructor
  · rintro ⟨⟨k', x⟩, hmem, rfl⟩
    exact ⟨x, (mem_entries_iff m k' x).mp hmem⟩
  · rintro ⟨x, hx⟩
    exact ⟨(k, x), (mem_entries_iff m k x).mpr hx, rfl⟩

theorem keys_nodup (m : SortedMap κ ν) : m.keys.Nodup :=
  (List.pairwise_map.mpr m.sorted).imp ne_of_lt

/-- **Maps with the same keys have the same size.** -/
theorem size_congr {m : SortedMap κ ν} {n : SortedMap κ μ} (h : ∀ k, m.contains k = n.contains k) :
    m.size = n.size := by
  have hkeys : m.keys.Perm n.keys :=
    (List.perm_ext_iff_of_nodup m.keys_nodup n.keys_nodup).mpr fun k => by
      rw [mem_keys_iff, mem_keys_iff, h]
  have hlength := hkeys.length_eq
  rwa [keys, keys, List.length_map, List.length_map] at hlength

/-- A key that is present leaves the size. -/
theorem size_insert_present {m : SortedMap κ ν} {k : κ} (h : m.contains k = true) (x : ν) :
    (m.insert k x).size = m.size := by
  refine size_congr fun k' => ?_
  rw [Bool.eq_iff_iff, contains_iff, contains_iff, find_insert]
  by_cases hk : k' = k
  · rw [if_pos hk, hk]
    exact iff_of_true ⟨x, rfl⟩ ((contains_iff m k).mp h)
  · rw [if_neg hk]

end SortedMap
