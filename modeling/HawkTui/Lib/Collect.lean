import Mathlib.Tactic.Common

/-! Two ways to run a list of checks: a fold that bails at the first error, and
one that notes its errors and goes on. They agree on a clean run when their
states stay related step by step. `Ends` says of one run what it may end in. -/

namespace HawkTui.Lib.Collect

variable {σ : Type u} {τ α ε : Type v} {collect : σ → α → σ} {load : τ → α → Except ε τ}
  {clean : σ → Prop} {related : σ → τ → Prop}

theorem bind_eq_ok {β : Type v} {x : Except ε α} {f : α → Except ε β} {b : β} :
    (x >>= f) = .ok b ↔ ∃ a, x = .ok a ∧ f a = .ok b := by
  cases x with
  | error e => simp [bind, Except.bind]
  | ok a => simp [bind, Except.bind]

theorem bind_eq_error {β : Type v} {x : Except ε α} {f : α → Except ε β} {e : ε} :
    (x >>= f) = .error e ↔ x = .error e ∨ ∃ a, x = .ok a ∧ f a = .error e := by
  cases x with
  | error e => simp [bind, Except.bind]
  | ok a => simp [bind, Except.bind]

/-- A value that `holds`, or an error that it `fails` with. -/
def Ends {α ε : Type u} (holds : α → Prop) (fails : ε → Prop) : Except ε α → Prop
  | .ok a => holds a
  | .error e => fails e

section Ends
variable {α β ε : Type u} {holds : α → Prop} {keeps : β → Prop} {fails : ε → Prop} {x : Except ε α}

theorem Ends.bind {f : α → Except ε β} (first : Ends holds fails x) (rest : ∀ a, holds a → Ends keeps fails (f a)) :
    Ends keeps fails (x >>= f) := by
  cases x with
  | error e => exact first
  | ok a => exact rest a first

theorem Ends.map {f : α → β} (first : Ends holds fails x) (kept : ∀ a, holds a → keeps (f a)) : Ends keeps fails (x.map f) := by
  cases x with
  | error e => exact first
  | ok a => exact kept a first

theorem Ends.mono {excused : ε → Prop} (ends : Ends holds fails x) (more : ∀ e, fails e → excused e) : Ends holds excused x := by
  cases x with
  | error e => exact more e ends
  | ok a => exact ends

theorem Ends.and {keeps : α → Prop} (ends : Ends holds fails x) (kept : ∀ a, x = .ok a → keeps a) :
    Ends (fun a => holds a ∧ keeps a) fails x := by
  cases x with
  | error e => exact ends
  | ok a => exact ⟨ends, kept a rfl⟩

theorem ends_iff : Ends holds fails x ↔ (∃ a, x = .ok a ∧ holds a) ∨ ∃ e, x = .error e ∧ fails e := by
  cases x with
  | error e => simp [Ends]
  | ok a => simp [Ends]

end Ends

/-- A clean end means a clean start when no step takes an error back. -/
theorem clean_of_foldl (keeps : ∀ s a, clean (collect s a) → clean s) {s : σ} {items : List α}
    (finish : clean (items.foldl collect s)) : clean s := by
  induction items generalizing s with
  | nil => exact finish
  | cons a items ih => exact keeps s a (ih finish)

theorem load_of_clean (keeps : ∀ s a, clean (collect s a) → clean s) {items : List α}
    (step : ∀ s t, ∀ a ∈ items, related s t → clean (collect s a) → ∃ t', load t a = .ok t' ∧ related (collect s a) t')
    {s : σ} {t : τ} (start : related s t) (finish : clean (items.foldl collect s)) :
    ∃ t', items.foldlM load t = .ok t' ∧ related (items.foldl collect s) t' := by
  induction items generalizing s t with
  | nil => exact ⟨t, rfl, start⟩
  | cons a items ih =>
    have later : clean (items.foldl collect (collect s a)) := finish
    obtain ⟨next, loaded, same⟩ := step s t a (by simp) start (clean_of_foldl keeps later)
    obtain ⟨t', rest, last⟩ := ih (fun s t b member => step s t b (by simp [member])) same later
    refine ⟨t', ?_, last⟩
    rw [List.foldlM_cons, loaded]
    exact rest

theorem related_of_load {items : List α}
    (step : ∀ s t t', ∀ a ∈ items, related s t → load t a = .ok t' → related (collect s a) t')
    {s : σ} {t t' : τ} (start : related s t) (loaded : items.foldlM load t = .ok t') :
    related (items.foldl collect s) t' := by
  induction items generalizing s t with
  | nil =>
    cases loaded
    exact start
  | cons a items ih =>
    rw [List.foldlM_cons, bind_eq_ok] at loaded
    obtain ⟨next, first, rest⟩ := loaded
    exact ih (fun s t t' b member => step s t t' b (by simp [member])) (step s t next a (by simp) start first) rest

/-- What every successful step keeps, a successful run keeps. -/
theorem invariant_of_load {holds : τ → Prop} {items : List α}
    (step : ∀ t t' a, holds t → load t a = .ok t' → holds t') {t t' : τ} (start : holds t)
    (loaded : items.foldlM load t = .ok t') : holds t' := by
  induction items generalizing t with
  | nil =>
    cases loaded
    exact start
  | cons a items ih =>
    rw [List.foldlM_cons, bind_eq_ok] at loaded
    obtain ⟨next, first, rest⟩ := loaded
    exact ih (step t next a start first) rest

theorem mapError_eq_ok {δ : Type v} {x : Except ε α} {f : ε → δ} {a : α} : x.mapError f = .ok a ↔ x = .ok a := by
  cases x <;> simp [Except.mapError]

theorem map_eq_ok {β : Type v} {x : Except ε α} {f : α → β} {b : β} : x.map f = .ok b ↔ ∃ a, x = .ok a ∧ f a = b := by
  cases x <;> simp [Except.map]

theorem exists_unit_eq_ok {ε : Type u} {step : Except ε Unit} : (∃ a, step = .ok a) ↔ step = .ok () := by
  constructor
  · intro done
    obtain ⟨_, done⟩ := done
    exact done
  · intro done
    exact ⟨(), done⟩

/-- A list of checks passes when each of them does. -/
theorem forM_eq_ok {α : Type u} {ε : Type} {check : α → Except ε Unit} {items : List α} :
    items.forM check = .ok () ↔ ∀ a ∈ items, check a = .ok () := by
  induction items with
  | nil => simp [List.forM, pure, Except.pure]
  | cons a items ih =>
    rw [List.forM, bind_eq_ok, List.forall_mem_cons, ← ih]
    constructor
    · intro passed
      obtain ⟨⟨⟩, first, rest⟩ := passed
      exact ⟨first, rest⟩
    · intro passed
      exact ⟨(), passed⟩

theorem exists_of_mapM {β : Type v} {f : α → Except ε β} {items : List α} {results : List β} {b : β}
    (mapped : items.mapM f = .ok results) (member : b ∈ results) : ∃ a ∈ items, f a = .ok b := by
  induction items generalizing results with
  | nil =>
    cases mapped
    cases member
  | cons a items ih =>
    rw [List.mapM_cons, bind_eq_ok] at mapped
    obtain ⟨c, first, mapped⟩ := mapped
    obtain ⟨rest, others, mapped⟩ := bind_eq_ok.mp mapped
    cases mapped
    rcases List.mem_cons.mp member with rfl | later
    · exact ⟨a, by simp, first⟩
    · obtain ⟨d, inside, found⟩ := ih others later
      exact ⟨d, by simp [inside], found⟩

end HawkTui.Lib.Collect
