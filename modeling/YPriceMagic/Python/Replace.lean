import Mathlib.Data.List.Infix

/-! Replacing a word from left to right. Where the new text stands between fences that a needle does
not have, no needle arises from what a replacement leaves on its two sides. -/
namespace YPriceMagic.Python

variable {α : Type}

/-- A scan keeps an element where the word does not begin, and replaces the word where it does. -/
inductive Replaced (old new : List α) : List α → List α → Prop
  | finished : Replaced old new [] []
  | kept {c : α} {text result : List α} (absent : ¬old <+: c::text) (rest : Replaced old new text result) :
    Replaced old new (c::text) (c::result)
  | replaced {text result : List α} (rest : Replaced old new text result) : Replaced old new (old++text) (new++result)

section
variable {fence : α} {needle before after : List α} (free : fence ∉ needle)
include free

theorem prefix_fence (start : needle <+: fence::after) : needle = [] := by
  obtain empty | ⟨rest,rfl,_⟩ := List.prefix_cons_iff.mp start
  · exact empty
  · exact absurd List.mem_cons_self free

theorem infix_fence (found : needle <:+: before++fence::after) : needle <:+: before ∨ needle <:+: after := by
  obtain left | right | ⟨first,second,rfl,ends,begins⟩ := List.infix_append_iff.mp found
  · exact Or.inl left
  · obtain start | later := List.infix_cons_iff.mp right
    · rw [prefix_fence free start]
      exact Or.inl (List.nil_infix)
    · exact Or.inr later
  · have empty := prefix_fence (fun member => free (List.mem_append_right first member)) begins
    rw [empty,List.append_nil]
    exact Or.inl ends.isInfix

end

namespace Replaced
variable {old needle middle text result : List α} {first last : α}

theorem starts {tail : List α} (free : first ∉ needle) (replaced : Replaced old (first::tail) text result)
    (start : needle <+: result) : needle <+: text := by
  induction replaced generalizing needle with
  | finished => exact start
  | kept _ _ ih =>
    obtain rfl | ⟨rest,rfl,inside⟩ := List.prefix_cons_iff.mp start
    · exact List.nil_prefix
    · exact List.cons_prefix_cons.mpr ⟨rfl,ih (fun member => free (List.mem_cons_of_mem _ member)) inside⟩
  | replaced =>
    rw [prefix_fence free start]
    exact List.nil_prefix

section
variable (opens : first ∉ needle) (closes : last ∉ needle)
include opens closes

theorem within (found : needle <:+: (first::middle++[last])++result) : needle <:+: middle ∨ needle <:+: result := by
  have split : (first::middle++[last])++result = []++first::(middle++last::result) := by simp
  rw [split] at found
  obtain empty | inside := infix_fence opens found
  · rw [List.infix_nil.mp empty]
    exact Or.inl List.nil_infix
  · exact infix_fence closes inside

/-- A needle of the result was in the text, or is one of the new text. -/
theorem found (replaced : Replaced old (first::middle++[last]) text result) (found : needle <:+: result) :
    needle <:+: middle ∨ needle <:+: text := by
  induction replaced with
  | finished => exact Or.inr found
  | kept absent rest ih =>
    obtain start | later := List.infix_cons_iff.mp found
    · exact Or.inr (starts opens (.kept absent rest) start).isInfix
    · exact (ih later).imp_right List.infix_cons
  | replaced _ ih =>
    obtain inside | later := within opens closes found
    · exact Or.inl inside
    · exact (ih later).imp_right List.infix_append_of_infix_right

end

/-- The word itself is gone. -/
theorem gone (opens : first ∉ old) (closes : last ∉ old) (other : ¬old <:+: middle)
    (replaced : Replaced old (first::middle++[last]) text result) : ¬old <:+: result := by
  intro found
  induction replaced with
  | finished =>
    rw [List.infix_nil.mp found] at other
    exact other List.nil_infix
  | kept absent rest ih =>
    obtain start | later := List.infix_cons_iff.mp found
    · exact absent (starts opens (.kept absent rest) start)
    · exact ih later
  | replaced _ ih => exact (within opens closes found).elim other ih

end Replaced

end YPriceMagic.Python
