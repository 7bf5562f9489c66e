/-!
# Results that may be errors

How a result is made up of the results of its steps, and what is left of it
when the error is forgotten.
-/

namespace ProofOutline

variable {ε δ α β : Type}

/-! ## Steps -/

@[simp] theorem ok_bind (value : α) (next : α → Except ε β) :
    (Except.ok value >>= next) = next value := rfl

@[simp] theorem error_bind (error : ε) (next : α → Except ε β) :
    (Except.error error >>= next) = .error error := rfl

@[simp] theorem map_ok (value : α) (f : α → β) :
    (Except.ok value : Except ε α).map f = .ok (f value) := rfl

@[simp] theorem map_error (error : ε) (f : α → β) :
    (Except.error error).map f = .error error := rfl

@[simp] theorem mapError_ok (value : α) (f : ε → δ) :
    (Except.ok value).mapError f = .ok value := rfl

@[simp] theorem mapError_error (error : ε) (f : ε → δ) :
    (Except.error error : Except ε α).mapError f = .error (f error) := rfl

@[simp] theorem bind_eq_ok_iff {first : Except ε α} {next : α → Except ε β}
    {value : β} :
    first >>= next = .ok value ↔
      ∃ middle, first = .ok middle ∧ next middle = .ok value := by
  cases first <;> simp

@[simp] theorem bind_eq_error_iff {first : Except ε α} {next : α → Except ε β}
    {error : ε} :
    first >>= next = .error error ↔ first = .error error ∨
      ∃ value, first = .ok value ∧ next value = .error error := by
  cases first <;> simp

@[simp] theorem map_eq_ok_iff {result : Except ε α} {f : α → β} {value : β} :
    result.map f = .ok value ↔
      ∃ found, result = .ok found ∧ f found = value := by
  cases result <;> simp

@[simp] theorem map_eq_error_iff {result : Except ε α} {f : α → β} {error : ε} :
    result.map f = .error error ↔ result = .error error := by
  cases result <;> simp

@[simp] theorem mapError_eq_ok_iff {result : Except ε α} {f : ε → δ}
    {value : α} :
    result.mapError f = .ok value ↔ result = .ok value := by
  cases result <;> simp

@[simp] theorem mapError_eq_error_iff {result : Except ε α} {f : ε → δ}
    {failure : δ} :
    result.mapError f = .error failure ↔
      ∃ error, result = .error error ∧ f error = failure := by
  cases result <;> simp

/-! ## Results without their errors -/

@[simp] theorem toOption_ok (value : α) :
    (Except.ok value : Except ε α).toOption = some value := rfl

@[simp] theorem toOption_error (error : ε) :
    (Except.error error : Except ε α).toOption = none := rfl

@[simp] theorem toOption_bind (first : Except ε α) (next : α → Except ε β) :
    (first >>= next).toOption =
      first.toOption.bind fun value => (next value).toOption := by
  cases first <;> rfl

@[simp] theorem toOption_mapError (result : Except ε α) (f : ε → δ) :
    (result.mapError f).toOption = result.toOption := by
  cases result <;> rfl

theorem toOption_mapM {γ : Type} {read : β → Except ε γ}
    {tree : α → β} {meaning : α → Option γ} {items : List α}
    (h : ∀ item ∈ items, (read (tree item)).toOption = meaning item) :
    ((items.map tree).mapM read).toOption = items.mapM meaning := by
  induction items with
  | nil => rfl
  | cons first rest ih =>
      obtain ⟨hfirst, hrest⟩ := List.forall_mem_cons.mp h
      rw [List.map_cons, List.mapM_cons, List.mapM_cons, toOption_bind,
        hfirst]
      simp only [toOption_bind, ih hrest]
      rfl

theorem eq_ok_of_toOption {result : Except ε α} {value : α}
    (kept : result.toOption = some value) : result = .ok value := by
  cases result with
  | ok _ => exact congrArg Except.ok (Option.some.inj kept)
  | error _ => cases kept

theorem exists_ok_of_isSome {result : Except ε α}
    (h : result.toOption.isSome = true) : ∃ value, result = .ok value := by
  cases result with
  | error error => cases h
  | ok value => exact ⟨value, rfl⟩

theorem exists_error_of_isNone {result : Except ε α}
    (h : result.toOption.isNone = true) : ∃ error, result = .error error := by
  cases result with
  | error error => exact ⟨error, rfl⟩
  | ok value => cases h

theorem eq_error_of_caught {result : Except ε α} {error : ε}
    (h : (tryCatch (result.map fun _ => none) fun error =>
      .ok (some error)).toOption = some (some error)) :
    result = .error error := by
  cases result with
  | ok value => cases h
  | error found =>
      cases h
      rfl

end ProofOutline
