import Calculator.Token.Value

/-!
# Steps that may fail
-/

namespace Calculator

variable {α β ε : Type}

@[simp]
theorem ok_bind {a : α} {f : α → Except Failure β} : Except.ok a >>= f = f a := rfl

@[simp]
theorem error_bind {failure : Failure} {f : α → Except Failure β} :
    Except.error failure >>= f = .error failure := rfl

theorem bind_eq_ok {x : Except ε α} {f : α → Except ε β} {b : β} :
    x >>= f = .ok b ↔ ∃ a, x = .ok a ∧ f a = .ok b := by
  cases x with
  | error failure => exact ⟨nofun, nofun⟩
  | ok a =>
    constructor
    · exact fun h => ⟨a, rfl, h⟩
    · rintro ⟨_, same, h⟩
      cases same
      exact h

theorem check_bind_eq_ok {x : Except Failure Unit} {f : Unit → Except Failure β} {b : β} :
    x >>= f = .ok b ↔ x = .ok () ∧ f () = .ok b := by
  rw [bind_eq_ok]
  exact ⟨fun ⟨(), h⟩ => h, fun h => ⟨(), h⟩⟩

theorem map_eq_ok {x : Except Failure α} {f : α → β} {b : β} :
    x.map f = .ok b ↔ ∃ a, x = .ok a ∧ f a = b := by
  cases x <;> simp [Except.map]

@[simp]
theorem Failure.withPosition_cause {failure : Failure} {position : Nat} :
    (failure.withPosition position).cause = failure.cause := by
  unfold withPosition
  split <;> rfl

/-! ### What an outcome is -/

/-- The outcome is a value with the first property, or a failure with the second. -/
def Ends (good : α → Prop) (bad : Failure → Prop) : Except Failure α → Prop
  | .ok a => good a
  | .error failure => bad failure

variable {good : α → Prop} {bad : Failure → Prop} {x : Except Failure α}

theorem Ends.mono {good' : α → Prop} {bad' : Failure → Prop} (h : Ends good bad x)
    (value : ∀ a, good a → good' a) (failure : ∀ f, bad f → bad' f) : Ends good' bad' x := by
  cases x with
  | ok a => exact value a h
  | error f => exact failure f h

theorem Ends.error {failure : Failure} (h : Ends good bad x) (fails : x = .error failure) : bad failure := by
  rw [fails] at h
  exact h

theorem ends_bind {good' : β → Prop} {bad' : Failure → Prop} {f : α → Except Failure β} (h : Ends good bad' x)
    (next : ∀ a, good a → Ends good' bad' (f a)) : Ends good' bad' (x >>= f) := by
  cases x with
  | ok a => exact next a h
  | error failure => exact h

theorem ends_of_forall (value : ∀ a, x = .ok a → good a) (failure : ∀ f, x = .error f → bad f) :
    Ends good bad x := by
  cases x with
  | ok a => exact value a rfl
  | error f => exact failure f rfl

/-- The outcome is a value, or a failure with the property. -/
abbrev Reports (bad : Failure → Prop) (x : Except Failure α) : Prop := Ends (fun _ => True) bad x

/-- The outcome is a failure, or a value with the property. -/
abbrev Gives (good : α → Prop) (x : Except Failure α) : Prop := Ends good (fun _ => True) x

theorem reports_any (x : Except Failure α) : Reports (fun _ => True) x :=
  ends_of_forall (fun _ _ => trivial) (fun _ _ => trivial)

theorem reports_bind {f : α → Except Failure β} (h : Reports bad x) (next : ∀ a, Reports bad (f a)) :
    Reports bad (x >>= f) :=
  ends_bind h fun a _ => next a

theorem reports_mapM {f : α → Except Failure β} {list : List α} (each : ∀ a ∈ list, Reports bad (f a)) :
    Reports bad (list.mapM f) := by
  induction list with
  | nil => trivial
  | cons a list ih =>
    obtain ⟨first, rest⟩ := List.forall_mem_cons.mp each
    rw [List.mapM_cons]
    apply reports_bind first
    intro b
    apply reports_bind (ih rest)
    exact fun _ => trivial

theorem reports_foldlM {f : β → α → Except Failure β} {list : List α} {b : β}
    (each : ∀ b, ∀ a ∈ list, Reports bad (f b a)) : Reports bad (list.foldlM f b) := by
  induction list generalizing b with
  | nil => trivial
  | cons a list ih =>
    rw [List.foldlM_cons]
    apply reports_bind (each b a List.mem_cons_self)
    exact fun next => ih fun b a member => each b a (List.mem_cons_of_mem _ member)

theorem gives_bind {good' : β → Prop} {f : α → Except Failure β} (next : ∀ a, Gives good' (f a)) :
    Gives good' (x >>= f) := by
  cases x with
  | ok a => exact next a
  | error failure => trivial

theorem ends_map {good' : β → Prop} {f : α → β} (h : Ends good bad x) (value : ∀ a, good a → good' (f a)) :
    Ends good' bad (x.map f) := by
  cases x with
  | ok a => exact value a h
  | error failure => exact h

/-! ### What numbers report -/

/-- Whether the cause lies in the text of a number. -/
def Cause.isOfNumber : Cause → Bool
  | notNumeric _ _ | unreadableNumber _ | unreadableLiteral _ _ => true
  | _ => false

theorem Token.numericValue_cause {token : Token} {failure : Failure} (h : token.numericValue = .error failure) :
    failure.cause.isOfNumber = true := by
  unfold numericValue at h
  split at h
  · cases h
    rfl
  · split at h
    · split at h <;> cases h
      rfl
    · split at h <;> cases h
      rfl

end Calculator
