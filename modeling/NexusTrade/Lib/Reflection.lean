import Mathlib.Order.Monotone.Defs
import NexusTrade.Lib.SortedMap

/-!
# Maps under a reversal of their keys

`reflect` carries a finite map along a strictly decreasing function of the keys, and a function of the
values; its entries come in the opposite order.  Where the function of the keys is onto, every operation
of the map commutes with it: **`reflect_insert`**, **`reflect_erase`**, **`reflect_modify`**, and the
ends of the map change places (**`first_reflect`**, **`last_reflect`**).

`mapValues` is the same for the keys as they are.
-/

namespace SortedMap

universe u v w x

variable {κ : Type u} {κ' : Type v} {ν : Type w} {μ : Type x} [LinearOrder κ] [LinearOrder κ']

/-- The map with its keys and values renamed; the keys in the opposite order. -/
def reflect (f : κ → κ') (hf : StrictAnti f) (g : ν → μ) (m : SortedMap κ ν) : SortedMap κ' μ :=
  ⟨(m.entries.map fun e => (f e.1, g e.2)).reverse, by
    rw [List.pairwise_reverse, List.pairwise_map]
    exact m.sorted.imp fun h => hf h⟩

section Reflect

variable {f : κ → κ'} (hf : StrictAnti f) (g : ν → μ) (m : SortedMap κ ν)

@[simp] theorem reflect_empty : (empty : SortedMap κ ν).reflect f hf g = empty := rfl

@[simp] theorem find_reflect (k : κ) : (m.reflect f hf g).find (f k) = (m.find k).map g := by
  refine find_congr fun y => ?_
  simp only [reflect, List.mem_reverse, List.mem_map, Prod.mk.injEq, Prod.exists,
    Option.map_eq_some_iff]
  constructor
  · rintro ⟨a, x, hx, hkey, rfl⟩
    rw [hf.injective hkey] at hx
    exact ⟨x, (m.mem_entries_iff k x).mp hx, rfl⟩
  · rintro ⟨x, hx, rfl⟩
    exact ⟨k, x, (m.mem_entries_iff k x).mpr hx, rfl, rfl⟩

@[simp] theorem first_reflect :
    (m.reflect f hf g).first = m.last.map fun e => (f e.1, g e.2) := by
  rw [first, reflect, List.head?_reverse, List.getLast?_map]
  rfl

@[simp] theorem last_reflect :
    (m.reflect f hf g).last = m.first.map fun e => (f e.1, g e.2) := by
  rw [last, reflect, List.getLast?_reverse, List.head?_map]
  rfl

theorem values_reflect : (m.reflect f hf g).values = (m.values.map g).reverse := by
  rw [values, reflect, values, List.map_reverse, List.map_map, List.map_map]
  rfl

section Surjective

variable (hs : Function.Surjective f)

include hs

theorem reflect_insert (k : κ) (x : ν) :
    (m.insert k x).reflect f hf g = (m.reflect f hf g).insert (f k) (g x) := by
  refine ext_find fun k' => ?_
  obtain ⟨k', rfl⟩ := hs k'
  rw [find_reflect, find_insert, find_insert, find_reflect]
  simp only [hf.injective.eq_iff]
  split <;> rfl

theorem reflect_erase (k : κ) : (m.erase k).reflect f hf g = (m.reflect f hf g).erase (f k) := by
  refine ext_find fun k' => ?_
  obtain ⟨k', rfl⟩ := hs k'
  rw [find_reflect, find_erase, find_erase, find_reflect]
  simp only [hf.injective.eq_iff]
  split <;> rfl

theorem reflect_modify (k : κ) (x : ν) :
    (m.modify k fun _ => x).reflect f hf g = (m.reflect f hf g).modify (f k) fun _ => g x := by
  refine ext_find fun k' => ?_
  obtain ⟨k', rfl⟩ := hs k'
  rw [find_reflect, find_modify, find_modify, find_reflect]
  simp only [hf.injective.eq_iff]
  split
  · cases m.find k' <;> rfl
  · rfl

end Surjective

end Reflect

section MapValues

variable (g : ν → μ) (m : SortedMap κ ν)

theorem mapValues_insert (k : κ) (x : ν) :
    (m.insert k x).mapValues g = (m.mapValues g).insert k (g x) := by
  refine ext_find fun k' => ?_
  rw [find_mapValues, find_insert, find_insert, find_mapValues]
  split <;> rfl

theorem mapValues_erase (k : κ) : (m.erase k).mapValues g = (m.mapValues g).erase k := by
  refine ext_find fun k' => ?_
  rw [find_mapValues, find_erase, find_erase, find_mapValues]
  split <;> rfl

theorem contains_mapValues (k : κ) : (m.mapValues g).contains k = m.contains k := by
  rw [contains, contains, find_mapValues, Option.isSome_map]

end MapValues

end SortedMap
