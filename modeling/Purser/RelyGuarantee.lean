import Mathlib.Logic.Function.Basic
import Purser.SharedWorlds

/-!
# Programs that rely on each other

Programs that take turns keep to one conduct: a relation that says how the world
may change.  A program relies on it between two of its calls, and guarantees it
for its own.
-/

namespace Purser.RelyGuarantee

open InteractionPrograms Program SharedWorlds

variable {Command : Type} {Answer : Command → Type} {World Value Result : Type}

variable {trace : List (Exchange Answer)} {assumed : Exchange Answer → Prop}

/-- How the world may change. -/
structure Conduct (World : Type) where
  Evolves : World → World → Prop
  refl : ∀ world, Evolves world world
  trans : ∀ {first second third}, Evolves first second → Evolves second third → Evolves first third

section Rules

variable (interface : Interface Answer World) (conduct : Conduct World)
  (good : Exchange Answer → Prop)

/-- Whatever the others do in the meantime, every exchange of the program is good and
changes the world as it may be changed, and the condition holds of its value. -/
def Guarantees (post : Value → World → Prop) : Program Answer Value → World → Prop
  | done value, world => ∀ later, conduct.Evolves world later → post value later
  | call command next, world => ∀ later, conduct.Evolves world later → ∀ answer,
      interface.Allows later ⟨command, answer⟩ →
        good ⟨command, answer⟩ ∧
        conduct.Evolves later (interface.effect later ⟨command, answer⟩) ∧
        Guarantees post (next answer) (interface.effect later ⟨command, answer⟩)

variable {interface conduct good} {post : Value → World → Prop} {world : World}

variable {program : Program Answer Value}

theorem Guarantees.later (guarantees : Guarantees interface conduct good post program world)
    {later : World} (evolves : conduct.Evolves world later) :
    Guarantees interface conduct good post program later := by
  cases program with
  | done | call =>
    intro last further
    exact guarantees last (conduct.trans evolves further)

theorem guarantees_issue {command : Command} {post : Answer command → World → Prop}
    (each : ∀ later, conduct.Evolves world later → ∀ answer,
      interface.Allows later ⟨command, answer⟩ →
        good ⟨command, answer⟩ ∧
        conduct.Evolves later (interface.effect later ⟨command, answer⟩) ∧
        ∀ last, conduct.Evolves (interface.effect later ⟨command, answer⟩) last →
          post answer last) : Guarantees interface conduct good post (issue command) world :=
  each

theorem guarantees_bind {middle : Value → World → Prop} {post : Result → World → Prop}
    {first : Program Answer Value} {next : Value → Program Answer Result}
    (begins : Guarantees interface conduct good middle first world)
    (continues : ∀ value later, conduct.Evolves world later → middle value later →
      Guarantees interface conduct good post (next value) later) :
    Guarantees interface conduct good post (first >>= next) world := by
  induction first generalizing world with
  | done value =>
    exact continues value world (conduct.refl world) (begins world (conduct.refl world))
  | call _ _ induction =>
    intro later evolves answer allowed
    obtain ⟨isGood, changes, rest⟩ := begins later evolves answer allowed
    refine ⟨isGood, changes, induction answer rest ?_⟩
    intro value last further holds
    exact continues value last (conduct.trans (conduct.trans evolves changes) further) holds

theorem guarantees_of_uses {harmless : Command → Prop} {final : Value → Prop}
    (uses : program.Uses harmless) (each : ∀ command, harmless command → ∀ later answer,
      interface.Allows later ⟨command, answer⟩ →
        good ⟨command, answer⟩ ∧
        conduct.Evolves later (interface.effect later ⟨command, answer⟩))
    (results : ∀ trace value, program.Produces trace value → final value) :
    Guarantees interface conduct good (fun value _ => final value) program world := by
  induction program generalizing world with
  | done value => exact fun _ _ => results [] value ⟨rfl, rfl⟩
  | call command next induction =>
    intro later evolves answer allowed
    obtain ⟨isGood, changes⟩ := each command uses.1 later answer allowed
    refine ⟨isGood, changes, induction answer (uses.2 answer) ?_⟩
    intro trace value produced
    exact results (⟨command, answer⟩ :: trace) value ⟨answer, trace, rfl, produced⟩

end Rules

section Turns

variable {Thread : Type} [DecidableEq Thread] {interface : Interface Answer World}
  {conduct : Conduct World}

/-- The next exchange of a thread is one that its program asks for. -/
theorem call_of_performs {program : Program Answer Value} {exchange : Exchange Answer}
    (performed : program.Performs (exchange :: trace)) :
    ∃ next, program = call exchange.command next ∧ (next exchange.answer).Performs trace := by
  obtain ⟨rest, value, produced⟩ := performed
  cases program with
  | done => cases produced.1
  | call _ next =>
    obtain ⟨answer, later, split, continued⟩ := produced
    obtain ⟨rfl, rfl⟩ := List.cons.inj split
    exact ⟨next, rfl, rest, value, continued⟩

variable {world : World}

/-- Programs that keep to the same conduct do so in every interleaving. -/
theorem good_of_interleaves {good : Thread → Exchange Answer → Prop}
    {post : Thread → Value → World → Prop} {programs : Thread → Program Answer Value}
    {history : History Thread Answer}
    (each : ∀ thread, Guarantees interface conduct (good thread) (post thread)
      (programs thread) world) (interleaves : Interleaves interface programs world history) :
    (∀ entry ∈ history, good entry.1 entry.2) ∧
      conduct.Evolves world (interface.after world (history.map Prod.snd)) := by
  -- The thread whose turn it is goes on with the rest of its program.
  induction history generalizing programs world with
  | nil => exact ⟨fun entry member => absurd member List.not_mem_nil, conduct.refl world⟩
  | cons entry history induction =>
    obtain ⟨thread, exchange⟩ := entry
    obtain ⟨allowed, accepted⟩ := interleaves.accepted
    have performed := interleaves.performed thread
    rw [ownPart_cons_self] at performed
    obtain ⟨next, isCall, continued⟩ := call_of_performs performed
    have own := each thread
    rw [isCall] at own
    obtain ⟨isGood, changes, rest⟩ := own world (conduct.refl world) exchange.answer allowed
    have later : ∀ other, Guarantees interface conduct (good other) (post other)
        (Function.update programs thread (next exchange.answer) other)
        (interface.effect world exchange) := by
      intro other
      by_cases same : other = thread
      · subst same
        rw [Function.update_self]
        exact rest
      · rw [Function.update_of_ne same]
        exact (each other).later changes
    have remaining : Interleaves interface
        (Function.update programs thread (next exchange.answer))
        (interface.effect world exchange) history := by
      refine ⟨accepted, ?_⟩
      intro other
      by_cases same : other = thread
      · subst same
        rw [Function.update_self]
        exact continued
      · have performedOther := interleaves.performed other
        rw [ownPart_cons_of_ne (Ne.symm same)] at performedOther
        rw [Function.update_of_ne same]
        exact performedOther
    obtain ⟨allGood, evolves⟩ := induction later remaining
    refine ⟨?_, conduct.trans changes evolves⟩
    intro entry member
    rcases List.mem_cons.mp member with rfl | inside
    · exact isGood
    · exact allGood entry inside

def restricted (interface : Interface Answer World) (assumed : Exchange Answer → Prop) :
    Interface Answer World where
  Allows world exchange := interface.Allows world exchange ∧ assumed exchange
  effect := interface.effect

theorem accepts_restricted (accepted : interface.Accepts world trace)
    (holds : ∀ exchange ∈ trace, assumed exchange) :
    (restricted interface assumed).Accepts world trace := by
  induction trace generalizing world with
  | nil => trivial
  | cons exchange _ induction =>
    refine ⟨⟨accepted.1, holds exchange List.mem_cons_self⟩, induction accepted.2 ?_⟩
    intro other member
    exact holds other (List.mem_cons_of_mem _ member)

end Turns

end Purser.RelyGuarantee
