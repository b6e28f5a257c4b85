import Mathlib.Data.List.Infix

/-! A log that only grows: an entry is judged by the entries before it, so a judgement
that was once made stays. -/
namespace YPriceMagic.Async

section
variable {α : Type} {judged : List α → α → Prop} {log : List α} {entry : α}

def EachEntry (judged : List α → α → Prop) (log : List α) : Prop :=
  ∀ earlier entry, earlier++[entry] <+: log → judged earlier entry

theorem EachEntry.nil : EachEntry judged [] := by
  intro earlier entry within
  simp at within

theorem EachEntry.snoc (each : EachEntry judged log) (held : judged log entry) : EachEntry judged (log++[entry]) := by
  intro earlier other within
  rcases List.prefix_concat_iff.mp within with last | before
  · obtain ⟨rfl,same⟩ := List.append_inj' last rfl
    cases same
    exact held
  · exact each earlier other before

theorem EachEntry.of_mem (each : EachEntry judged log) (member : entry ∈ log) :
    ∃ earlier, earlier++[entry] <+: log ∧ judged earlier entry := by
  obtain ⟨earlier,later,rfl⟩ := List.append_of_mem member
  have within : earlier++[entry] <+: earlier++entry::later := ⟨later,by simp⟩
  exact ⟨earlier,within,each earlier entry within⟩

theorem EachEntry.before {earlier : List α} (each : EachEntry judged log) (within : earlier++[entry] <+: log) :
    EachEntry judged earlier :=
  fun first other inner => each first other (inner.trans ((List.prefix_append earlier [entry]).trans within))

end

end YPriceMagic.Async
