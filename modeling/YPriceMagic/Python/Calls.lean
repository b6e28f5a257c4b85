
/-! Calls that raise, refuse with an error value, or yield a result, and their composition. -/
namespace YPriceMagic.Python

/-- The exceptions that conversions raise. -/
inductive Raised
  | valueError
  | typeError
  | overflowError
  | invalidOperation
  deriving DecidableEq, Repr

/-- A call whose refusals are values of `ε`. -/
abbrev Call (ε : Type) := ExceptT ε (Except Raised)

namespace Call
variable {ε α β : Type}

def Raises (call : Call ε α) (raised : Raised) : Prop := call.run = .error raised

def Yields (call : Call ε α) (value : α) : Prop := call.run = .ok (.ok value)

/-- The call returns: a result or a refusal. -/
def Returns (call : Call ε α) : Prop := ∃ result, call.run = .ok result

/-- A body that may only raise. -/
def lift (body : Except Raised α) : Call ε α := ExceptT.lift body

/-- `try: value = body … except classes: handler`. -/
def attempt (body : Except Raised α) (classes : List Raised) (handler : Call ε α) : Call ε α :=
  match body with
  | .ok value => return value
  | .error raised => if raised ∈ classes then handler else lift (.error raised)

theorem returns_iff (call : Call ε α) : call.Returns ↔ ∀ raised, ¬call.Raises raised := by
  unfold Returns Raises
  cases call.run <;> simp

theorem Raises.not_returns {call : Call ε α} (raised : Raised) (raises : call.Raises raised) : ¬call.Returns :=
  fun returns => (returns_iff call).mp returns raised raises

theorem run_pure (value : α) : (pure value : Call ε α).run = .ok (.ok value) := rfl

theorem run_throw (refusal : ε) : (throw refusal : Call ε α).run = .ok (.error refusal) := rfl

theorem run_lift (body : Except Raised α) : (lift body : Call ε α).run = body.map .ok := rfl

@[simp] theorem raises_pure (value : α) (raised : Raised) : ¬(pure value : Call ε α).Raises raised := by
  rw [Raises,run_pure]
  simp

@[simp] theorem yields_pure (value result : α) : (pure value : Call ε α).Yields result ↔ value = result := by
  rw [Yields,run_pure]
  simp

@[simp] theorem raises_throw (refusal : ε) (raised : Raised) : ¬(throw refusal : Call ε α).Raises raised := by
  rw [Raises,run_throw]
  simp

@[simp] theorem yields_throw (refusal : ε) (result : α) : ¬(throw refusal : Call ε α).Yields result := by
  rw [Yields,run_throw]
  simp

@[simp] theorem raises_lift (body : Except Raised α) (raised : Raised) :
    (lift body : Call ε α).Raises raised ↔ body = .error raised := by
  rw [Raises,run_lift]
  cases body <;> simp [Except.map]

@[simp] theorem yields_lift (body : Except Raised α) (result : α) :
    (lift body : Call ε α).Yields result ↔ body = .ok result := by
  rw [Yields,run_lift]
  cases body <;> simp [Except.map]

theorem run_bind (call : Call ε α) (next : α → Call ε β) :
    (call >>= next).run = match call.run with
      | .error raised => .error raised
      | .ok (.error refusal) => .ok (.error refusal)
      | .ok (.ok value) => (next value).run := by
  rw [ExceptT.run_bind]
  cases call.run with
  | error raised => rfl
  | ok result => cases result <;> rfl

@[simp] theorem raises_bind (call : Call ε α) (next : α → Call ε β) (raised : Raised) :
    (call >>= next).Raises raised ↔
      call.Raises raised ∨ ∃ value, call.Yields value ∧ (next value).Raises raised := by
  unfold Raises Yields
  rw [run_bind]
  cases call.run with
  | error other => simp
  | ok result => cases result <;> simp

@[simp] theorem yields_bind (call : Call ε α) (next : α → Call ε β) (result : β) :
    (call >>= next).Yields result ↔ ∃ value, call.Yields value ∧ (next value).Yields result := by
  unfold Yields
  rw [run_bind]
  cases call.run with
  | error other => simp
  | ok result => cases result <;> simp

@[simp] theorem raises_map (call : Call ε α) (f : α → β) (raised : Raised) :
    (f <$> call).Raises raised ↔ call.Raises raised := by
  have composed := raises_bind call (fun value => pure (f value)) raised
  simpa using composed

@[simp] theorem yields_map (call : Call ε α) (f : α → β) (result : β) :
    (f <$> call).Yields result ↔ ∃ value, call.Yields value ∧ f value = result := by
  have composed := yields_bind call (fun value => pure (f value)) result
  simpa using composed

@[simp] theorem raises_attempt (body : Except Raised α) (classes : List Raised) (handler : Call ε α)
    (raised : Raised) : (attempt body classes handler).Raises raised ↔
      ∃ inner, body = .error inner ∧ if inner ∈ classes then handler.Raises raised else inner = raised := by
  cases body with
  | ok value => simp [attempt]
  | error inner =>
    by_cases caught : inner ∈ classes <;> simp [attempt,caught]

@[simp] theorem yields_attempt (body : Except Raised α) (classes : List Raised) (handler : Call ε α)
    (result : α) : (attempt body classes handler).Yields result ↔
      body = .ok result ∨ ∃ inner, body = .error inner ∧ inner ∈ classes ∧ handler.Yields result := by
  cases body with
  | ok value => simp [attempt]
  | error inner =>
    by_cases caught : inner ∈ classes <;> simp [attempt,caught]

@[simp] theorem raises_ite (condition : Prop) [Decidable condition] (yes no : Call ε α) (raised : Raised) :
    (if condition then yes else no).Raises raised ↔
      (condition ∧ yes.Raises raised ∨ ¬condition ∧ no.Raises raised) := by
  by_cases holds : condition <;> simp [holds]

@[simp] theorem yields_ite (condition : Prop) [Decidable condition] (yes no : Call ε α) (result : α) :
    (if condition then yes else no).Yields result ↔
      (condition ∧ yes.Yields result ∨ ¬condition ∧ no.Yields result) := by
  by_cases holds : condition <;> simp [holds]

end Call
end YPriceMagic.Python
