import YPriceMagic.Async.Coroutine

/-! How a coroutine can end when only some replies are possible to each operation. -/
namespace YPriceMagic.Async.Coroutine

variable {Op : Type} {Reply : Op → Type} {ε α β : Type} (possible : (op : Op) → Reply op → Prop)

def Ends : Coroutine Op Reply ε α → Outcome ε α → Prop
  | finished outcome,ending => ending = outcome
  | perform op resume,ending => ∃ reply, possible op reply ∧ Ends (resume reply) ending

section
variable {possible} {ending : Outcome ε β} {outcome : Outcome ε α}

@[simp] theorem ends_raise {error : ε} : Ends possible (raise error : Coroutine Op Reply ε α) outcome ↔ outcome = .raised error := Iff.rfl

theorem ends_andThen {first : Coroutine Op Reply ε α} {next : Outcome ε α → Coroutine Op Reply ε β} :
    Ends possible (first.andThen next) ending ↔ ∃ outcome, Ends possible first outcome ∧ Ends possible (next outcome) ending := by
  induction first with
  | finished outcome => exact ⟨fun ended => ⟨outcome,rfl,ended⟩,fun ⟨_,same,ended⟩ => same ▸ ended⟩
  | perform op resume ih =>
    constructor
    · rintro ⟨reply,could,ended⟩
      obtain ⟨outcome,first,rest⟩ := (ih reply).mp ended
      exact ⟨outcome,⟨reply,could,first⟩,rest⟩
    · rintro ⟨outcome,⟨reply,could,first⟩,rest⟩
      exact ⟨reply,could,(ih reply).mpr ⟨outcome,first,rest⟩⟩

theorem exists_outcome {property : Outcome ε α → Prop} : (∃ outcome, property outcome) ↔
    (∃ value, property (.returned value)) ∨ (∃ error, property (.raised error)) ∨ property .cancelled := by
  constructor
  · rintro ⟨outcome,holds⟩
    cases outcome with
    | returned value => exact Or.inl ⟨value,holds⟩
    | raised error => exact Or.inr (Or.inl ⟨error,holds⟩)
    | cancelled => exact Or.inr (Or.inr holds)
  · rintro (⟨value,holds⟩ | ⟨error,holds⟩ | holds)
    · exact ⟨.returned value,holds⟩
    · exact ⟨.raised error,holds⟩
    · exact ⟨.cancelled,holds⟩

theorem ends_bind {first : Coroutine Op Reply ε α} {next : α → Coroutine Op Reply ε β} :
    Ends possible (first >>= next) ending ↔ (∃ value, Ends possible first (.returned value) ∧ Ends possible (next value) ending) ∨
      (∃ error, Ends possible first (.raised error) ∧ ending = .raised error) ∨
      (Ends possible first .cancelled ∧ ending = .cancelled) :=
  ends_andThen.trans exists_outcome

theorem ends_map {first : Coroutine Op Reply ε α} {f : α → β} :
    Ends possible (f <$> first) ending ↔ ∃ outcome, Ends possible first outcome ∧ ending = outcome.map f := by
  refine ends_andThen.trans (exists_congr fun outcome => and_congr_right fun _ => ?_)
  cases outcome <;> exact Iff.rfl

theorem ends_tryExcept {body : Coroutine Op Reply ε α} {handler : ε → Coroutine Op Reply ε α} :
    Ends possible (body.tryExcept handler) outcome ↔ (∃ value, Ends possible body (.returned value) ∧ outcome = .returned value) ∨
      (∃ error, Ends possible body (.raised error) ∧ Ends possible (handler error) outcome) ∨
      (Ends possible body .cancelled ∧ outcome = .cancelled) :=
  ends_andThen.trans exists_outcome

theorem ends_tryFinally {body : Coroutine Op Reply ε α} {cleanup : Coroutine Op Reply ε Unit}
    (clean : ∀ ending, Ends possible cleanup ending ↔ ending = .returned ()) :
    Ends possible (body.tryFinally cleanup) outcome ↔ Ends possible body outcome := by
  refine ends_andThen.trans ⟨?_,fun ended => ⟨outcome,ended,?_⟩⟩
  · rintro ⟨middle,ended,rest⟩
    obtain ⟨ending,cleaned,last⟩ := ends_andThen.mp rest
    rw [clean] at cleaned
    subst cleaned
    cases last
    exact ended
  · exact ends_andThen.mpr ⟨.returned (),(clean _).mpr rfl,rfl⟩

variable (possible) in
/-- A coroutine that nobody cancels and that does not end cancelled by itself. -/
def Uncancelled (program : Coroutine Op Reply ε α) : Prop := ¬ Ends possible program .cancelled

theorem uncancelled_pure (value : α) : Uncancelled possible (pure value : Coroutine Op Reply ε α) :=
  fun ended => by cases ended

theorem uncancelled_raise (error : ε) : Uncancelled possible (raise error : Coroutine Op Reply ε α) :=
  fun ended => by cases ended

theorem uncancelled_perform {op : Op} {resume : Reply op → Coroutine Op Reply ε α}
    (resumed : ∀ reply, possible op reply → Uncancelled possible (resume reply)) : Uncancelled possible (perform op resume) :=
  fun ⟨reply,could,ended⟩ => resumed reply could ended

theorem Uncancelled.bind {first : Coroutine Op Reply ε α} {next : α → Coroutine Op Reply ε β} (started : Uncancelled possible first)
    (continued : ∀ value, Uncancelled possible (next value)) : Uncancelled possible (first >>= next) := by
  intro ended
  rcases ends_bind.mp ended with ⟨value,_,rest⟩ | ⟨_,_,same⟩ | ⟨cancelled,_⟩
  · exact continued value rest
  · contradiction
  · exact started cancelled

theorem Uncancelled.tryExcept {body : Coroutine Op Reply ε α} {handler : ε → Coroutine Op Reply ε α}
    (started : Uncancelled possible body) (handled : ∀ error, Uncancelled possible (handler error)) :
    Uncancelled possible (body.tryExcept handler) := by
  intro ended
  rcases ends_tryExcept.mp ended with ⟨_,_,same⟩ | ⟨error,_,rest⟩ | ⟨cancelled,_⟩
  · contradiction
  · exact handled error rest
  · exact started cancelled

theorem Uncancelled.map {first : Coroutine Op Reply ε α} (started : Uncancelled possible first) (f : α → β) :
    Uncancelled possible (f <$> first) :=
  started.bind fun value => uncancelled_pure (f value)

variable (possible) in
/-- However it is answered, it returns. -/
def Returning (program : Coroutine Op Reply ε α) : Prop := ∀ ending, Ends possible program ending → ∃ value, ending = .returned value

theorem returning_pure (value : α) : Returning possible (pure value : Coroutine Op Reply ε α) := fun _ ended => ⟨value,ended⟩

theorem returning_perform {op : Op} {resume : Reply op → Coroutine Op Reply ε α} (resumed : ∀ reply, Returning possible (resume reply)) :
    Returning possible (perform op resume) := fun ending ⟨reply,_,ended⟩ => resumed reply ending ended

theorem Returning.continues {first : Coroutine Op Reply ε α} {next : α → Coroutine Op Reply ε β} (returning : Returning possible first)
    (ended : Ends possible (first >>= next) ending) : ∃ value, Ends possible first (.returned value) ∧ Ends possible (next value) ending := by
  rcases ends_bind.mp ended with continued | ⟨error,failed,_⟩ | ⟨failed,_⟩
  · exact continued
  · obtain ⟨_,same⟩ := returning _ failed
    contradiction
  · obtain ⟨_,same⟩ := returning _ failed
    contradiction

theorem Returning.bind {first : Coroutine Op Reply ε α} {next : α → Coroutine Op Reply ε β} (returning : Returning possible first)
    (continued : ∀ value, Returning possible (next value)) : Returning possible (first >>= next) := by
  intro ending ended
  obtain ⟨value,_,rest⟩ := returning.continues ended
  exact continued value ending rest

theorem Returning.uncancelled {program : Coroutine Op Reply ε α} (returning : Returning possible program) :
    Uncancelled possible program := by
  intro ended
  obtain ⟨_,same⟩ := returning _ ended
  contradiction

end

end YPriceMagic.Async.Coroutine
