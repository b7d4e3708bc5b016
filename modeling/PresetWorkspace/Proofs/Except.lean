/-!
# Computations that may fail

A chain of computations succeeds with what its last one gives, if all of them
do; a check lets what follows it pass, or fails. Without their errors
computations are optional values, also along a list.
-/

namespace PresetWorkspace

section
variable {ε ε' α β γ σ : Type}

/-! ## Chains -/

@[simp] theorem ok_bind (v : α) (f : α → Except ε β) : ((.ok v : Except ε α) >>= f) = f v := rfl

@[simp] theorem error_bind (e : ε) (f : α → Except ε β) : ((.error e : Except ε α) >>= f) = .error e := rfl

@[simp] theorem map_ok (v : α) (f : α → β) : (.ok v : Except ε α).map f = .ok (f v) := rfl

theorem bind_eq_ok {x : Except ε α} {f : α → Except ε β} {b : β} : x.bind f = .ok b ↔ ∃ a, x = .ok a ∧ f a = .ok b := by
  cases x with
  | error e => exact ⟨fun h => (by cases h), fun ⟨_, h, _⟩ => (by cases h)⟩
  | ok a => exact ⟨fun h => ⟨a, rfl, h⟩, fun ⟨_, h, hf⟩ => (by cases h; exact hf)⟩

theorem map_eq_ok {x : Except ε α} {f : α → β} {b : β} : x.map f = .ok b ↔ ∃ a, x = .ok a ∧ f a = b := by
  cases x with
  | error e => exact ⟨fun h => (by cases h), fun ⟨_, h, _⟩ => (by cases h)⟩
  | ok a => exact ⟨fun h => ⟨a, rfl, Except.ok.inj h⟩, fun ⟨_, h, hf⟩ => (by cases h; exact congrArg _ hf)⟩

/-! ## Checks -/

theorem check_eq_ok {x : Except ε Unit} {f : Unit → Except ε α} {r : α} :
    (x >>= f) = .ok r ↔ x = .ok () ∧ f () = .ok r :=
  bind_eq_ok.trans ⟨fun ⟨_, h⟩ => h, fun h => ⟨(), h⟩⟩

/-- A guard that throws lets a computation pass if its condition fails. -/
theorem guarded_eq_ok {c : Prop} [Decidable c] {e : ε} {f : PUnit → Except ε α} {r : α} :
    (if c then throw e >>= f else f ⟨⟩) = .ok r ↔ ¬ c ∧ f ⟨⟩ = .ok r := by
  by_cases hc : c
  · rw [if_pos hc]
    exact ⟨fun h => (by cases h), fun h => absurd hc h.1⟩
  · rw [if_neg hc]
    exact ⟨fun h => ⟨hc, h⟩, fun h => h.2⟩

theorem else_throw_eq_ok {c : Prop} [Decidable c] {e : ε} {x : Except ε α} {r : α} :
    (if c then x else throw e) = .ok r ↔ c ∧ x = .ok r := by
  by_cases hc : c
  · rw [if_pos hc]
    exact ⟨fun h => ⟨hc, h⟩, fun h => h.2⟩
  · rw [if_neg hc]
    exact ⟨fun h => (by cases h), fun h => absurd h.1 hc⟩

theorem forM_ok {l : List α} {f : α → Except ε Unit} (h : ∀ x ∈ l, f x = .ok ()) : l.forM f = .ok () := by
  induction l with
  | nil => rfl
  | cons x l ih =>
    obtain ⟨hx, hl⟩ := List.forall_mem_cons.mp h
    exact check_eq_ok.mpr ⟨hx, ih hl⟩

theorem mapM_map_ok_of_mem {key : α → β} {f : β → Except ε γ} {g : α → γ} {l : List α}
    (h : ∀ x ∈ l, f (key x) = .ok (g x)) : (l.map key).mapM f = .ok (l.map g) := by
  induction l with
  | nil => rfl
  | cons x l ih =>
    obtain ⟨hx, hl⟩ := List.forall_mem_cons.mp h
    rw [List.map_cons, List.mapM_cons, hx, ih hl]
    rfl

theorem mapM_map_ok {key : α → β} {f : β → Except ε γ} {g : α → γ} (h : ∀ x, f (key x) = .ok (g x)) (l : List α) :
    (l.map key).mapM f = .ok (l.map g) := mapM_map_ok_of_mem fun x _ => h x

/-! ## Values -/

theorem toOption_eq_some {x : Except ε α} {a : α} : x.toOption = some a ↔ x = .ok a := by
  cases x <;> simp [Except.toOption]

theorem toOption_bind (x : Except ε α) (f : α → Except ε β) :
    (x.bind f).toOption = x.toOption.bind fun a => (f a).toOption := by
  cases x <;> rfl

theorem toOption_map (x : Except ε α) (f : α → β) : (x.map f).toOption = x.toOption.map f := by
  cases x <;> rfl

theorem toOption_mapError (x : Except ε α) (f : ε → ε') : (x.mapError f).toOption = x.toOption := by
  cases x <;> rfl

theorem toOption_foldlM (step : σ → α → Except ε σ) (s : σ) (xs : List α) :
    (xs.foldlM step s).toOption = xs.foldlM (fun s x => (step s x).toOption) s := by
  induction xs generalizing s with
  | nil => rfl
  | cons x xs ih =>
    rw [List.foldlM_cons, List.foldlM_cons]
    refine (toOption_bind _ _).trans ?_
    simp only [ih]
    rfl

theorem toOption_mapM (f : α → Except ε β) (xs : List α) :
    (xs.mapM f).toOption = xs.mapM fun x => (f x).toOption := by
  induction xs with
  | nil => rfl
  | cons x xs ih =>
    rw [List.mapM_cons, List.mapM_cons, ← ih]
    cases f x with
    | error c => rfl
    | ok y => cases xs.mapM f <;> rfl

end

end PresetWorkspace
