import Std.Data.ExtTreeMap
import Mathlib.Data.List.Nodup
import Mathlib.Tactic.Common

/-! Ordered maps. `BTreeMap` is the standard extensional tree map, so that two
maps with the same entries are equal and iteration is in key order. -/

namespace HawkTui.Lib

theorem mem_of_last {items : List α} {p : α → Bool} {a : α} (last : (items.filter p).getLast? = some a) :
    a ∈ items ∧ p a = true := List.mem_filter.mp (List.mem_of_getLast? last)

theorem exists_last {items : List α} {p : α → Bool} {a : α} (member : a ∈ items) (kept : p a = true) :
    ∃ last, (items.filter p).getLast? = some last := by
  apply Option.ne_none_iff_exists'.mp
  rw [ne_eq, List.getLast?_eq_none_iff]
  exact List.ne_nil_of_mem (List.mem_filter.mpr ⟨member, kept⟩)

abbrev BTreeMap (κ : Type u) (ν : Type v) [Ord κ] := Std.ExtTreeMap κ ν compare

namespace BTreeMap

variable {κ : Type u} {ν : Type v} [Ord κ] [Std.TransOrd κ]

/-- Insert a list of entries from left to right; later entries win. -/
def extend (m : BTreeMap κ ν) (entries : List (κ × ν)) : BTreeMap κ ν :=
  entries.foldl (fun out entry => out.insert entry.1 entry.2) m

@[simp] theorem extend_nil (m : BTreeMap κ ν) : extend m [] = m := rfl

@[simp] theorem extend_cons (m : BTreeMap κ ν) (entry : κ × ν) (entries : List (κ × ν)) :
    extend m (entry :: entries) = extend (m.insert entry.1 entry.2) entries := rfl

theorem extend_append (m : BTreeMap κ ν) (first second : List (κ × ν)) :
    extend m (first ++ second) = extend (extend m first) second := List.foldl_append

variable [Std.LawfulEqOrd κ] [DecidableEq κ]

theorem getElem?_insert_eq (m : BTreeMap κ ν) (k key : κ) (v : ν) :
    (m.insert k v)[key]? = if k = key then some v else m[key]? := by
  rw [Std.ExtTreeMap.getElem?_insert]
  simp only [Std.LawfulEqOrd.compare_eq_iff_eq]

omit [DecidableEq κ] in
theorem mem_insert_eq (m : BTreeMap κ ν) (k key : κ) (v : ν) : key ∈ m.insert k v ↔ key = k ∨ key ∈ m := by
  rw [Std.ExtTreeMap.mem_insert, Std.LawfulEqOrd.compare_eq_iff_eq, eq_comm]

theorem getElem?_erase_eq (m : BTreeMap κ ν) (k key : κ) :
    (m.erase k)[key]? = if k = key then none else m[key]? := by
  rw [Std.ExtTreeMap.getElem?_erase]
  simp only [Std.LawfulEqOrd.compare_eq_iff_eq]

theorem map_insert {μ : Type w} (m : BTreeMap κ ν) (f : κ → ν → μ) (k : κ) (v : ν) :
    (m.insert k v).map f = (m.map f).insert k (f k v) := by
  apply Std.ExtTreeMap.ext_getElem?
  intro key
  simp only [Std.ExtTreeMap.getElem?_map, getElem?_insert_eq]
  split
  next same => simp [same]
  next => rfl

/-- The last entry for a key decides; without one the old value stays. -/
theorem getElem?_extend (m : BTreeMap κ ν) (entries : List (κ × ν)) (key : κ) :
    (extend m entries)[key]? = (((entries.filter (·.1 = key)).getLast?).map Prod.snd).or m[key]? := by
  induction entries generalizing m with
  | nil => simp
  | cons entry rest ih =>
    rw [extend_cons, ih, getElem?_insert_eq, List.filter_cons]
    by_cases same : entry.1 = key
    · simp only [same, decide_true, ↓reduceIte, List.getLast?_cons, Option.map_some, Option.or_some]
      cases (rest.filter (·.1 = key)).getLast? <;> simp
    · simp [same]

omit [DecidableEq κ] in
theorem mem_extend (m : BTreeMap κ ν) (entries : List (κ × ν)) (key : κ) :
    key ∈ extend m entries ↔ key ∈ entries.map Prod.fst ∨ key ∈ m := by
  induction entries generalizing m with
  | nil => simp
  | cons entry rest ih =>
    rw [extend_cons, ih, mem_insert_eq, List.map_cons, List.mem_cons]
    tauto

omit [DecidableEq κ] in
theorem keys_extend_eq_nil (entries : List (κ × ν)) : (extend (∅ : BTreeMap κ ν) entries).keys = [] ↔ entries = [] := by
  rw [List.eq_nil_iff_forall_not_mem]
  simp only [Std.ExtTreeMap.mem_keys, mem_extend, Std.ExtTreeMap.not_mem_empty, or_false]
  rw [← List.eq_nil_iff_forall_not_mem, List.map_eq_nil_iff]

theorem getElem?_extend_eq_some_iff {entries : List (κ × ν)} (distinct : (entries.map Prod.fst).Nodup) (k : κ) (v : ν) :
    (extend (∅ : BTreeMap κ ν) entries)[k]? = some v ↔ (k, v) ∈ entries := by
  rw [getElem?_extend]
  simp only [Std.ExtTreeMap.getElem?_empty, Option.or_none, Option.map_eq_some_iff]
  constructor
  · intro found
    obtain ⟨entry, last, rfl⟩ := found
    have member := mem_of_last last
    obtain rfl : entry.1 = k := by simpa using member.2
    exact member.1
  · intro member
    obtain ⟨last, found⟩ : ∃ last, (entries.filter (·.1 = k)).getLast? = some last := exists_last member (by simp)
    have kept := mem_of_last found
    have same : last = (k, v) := List.inj_on_of_nodup_map distinct kept.1 member (by simpa using kept.2)
    exact ⟨last, found, by rw [same]⟩

theorem forall_extend {P : κ → ν → Prop} {entries : List (κ × ν)} (distinct : (entries.map Prod.fst).Nodup) :
    (∀ k v, (extend (∅ : BTreeMap κ ν) entries)[k]? = some v → P k v) ↔ ∀ entry ∈ entries, P entry.1 entry.2 := by
  simp only [getElem?_extend_eq_some_iff distinct, Prod.forall]

/-- Reinserting a map's own entries in order rebuilds it. -/
theorem extend_toList (m : BTreeMap κ ν) : extend ∅ m.toList = m := by
  have built : extend ∅ m.toList = Std.ExtTreeMap.ofList m.toList compare :=
    (Std.ExtTreeMap.ofList_eq_foldl).symm
  rw [built]
  apply Std.ExtTreeMap.ext_getElem?
  intro key
  cases found : m[key]? with
  | some value =>
    exact Std.ExtTreeMap.getElem?_ofList_of_mem Std.ReflOrd.compare_self Std.ExtTreeMap.distinct_keys_toList
      (Std.ExtTreeMap.mem_toList_iff_getElem?_eq_some.mpr found)
  | none =>
    apply Std.ExtTreeMap.getElem?_ofList_of_contains_eq_false
    simp only [Std.ExtTreeMap.map_fst_toList_eq_keys, List.contains_eq_mem, decide_eq_false_iff_not,
      Std.ExtTreeMap.mem_keys]
    intro member
    simp [Std.ExtTreeMap.mem_iff_isSome_getElem?, found] at member

theorem getElem?_extend_toList (m upper : BTreeMap κ ν) (key : κ) :
    (extend m upper.toList)[key]? = upper[key]?.or m[key]? := by
  have own := getElem?_extend ∅ upper.toList key
  rw [extend_toList, Std.ExtTreeMap.getElem?_empty, Option.or_none] at own
  rw [getElem?_extend, own]

end BTreeMap

end HawkTui.Lib
