import Mathlib.Data.List.Basic

/-!
# Programs that exchange commands and answers

A program issues one command at a time and goes on with the answer it
gets.  `Produces` relates it to each finished trace and the value at its end;
`run` plays it against given answers.
-/

namespace Purser.InteractionPrograms

open List

inductive Program {Command : Type} (Answer : Command → Type)
    (Value : Type) : Type
  | done (value : Value)
  | call (command : Command)
      (next : Answer command → Program Answer Value)

structure Exchange {Command : Type} (Answer : Command → Type) : Type where
  command : Command
  answer : Answer command

namespace Program

variable {Command : Type} {Answer : Command → Type}
variable {Value Result : Type}

def bind : Program Answer Value → (Value → Program Answer Result) → Program Answer Result
  | done value, next => next value
  | call command continuation, next =>
    call command fun answer => (continuation answer).bind next

instance : Monad (Program Answer) where
  pure := done
  bind := bind

def issue (command : Command) : Program Answer (Answer command) := call command done

def issueAll : List Command → Program Answer Unit
  | [] => done ()
  | command :: commands => call command fun _ => issueAll commands

def Produces : Program Answer Value → List (Exchange Answer) → Value → Prop
  | done value, trace, result => trace = [] ∧ result = value
  | call command next, trace, result =>
    ∃ answer rest, trace = ⟨command, answer⟩ :: rest ∧
      (next answer).Produces rest result

def run (respond : List (Exchange Answer) → (command : Command) → Answer command) :
    Program Answer Value → List (Exchange Answer) → List (Exchange Answer) × Value
  | done value, _ => ([], value)
  | call command next, history =>
    let exchange : Exchange Answer := ⟨command, respond history command⟩
    let continued :=
      (next exchange.answer).run respond (history ++ [exchange])
    (exchange :: continued.1, continued.2)

theorem produces_run (respond : List (Exchange Answer) →
      (command : Command) → Answer command) (program : Program Answer Value)
    (history : List (Exchange Answer)) :
    program.Produces (program.run respond history).1 (program.run respond history).2 := by
  induction program generalizing history with
  | done => exact ⟨rfl, rfl⟩
  | call command next induction =>
    exact ⟨respond history command, _, rfl, induction _ _⟩

@[simp]
theorem produces_issue (command : Command) (answer : Answer command)
    (trace : List (Exchange Answer)) :
    (issue command).Produces trace answer ↔ trace = [⟨command, answer⟩] := by
  constructor
  · rintro ⟨given, rest, rfl, rfl, rfl⟩
    rfl
  · rintro rfl
    exact ⟨answer, [], rfl, rfl, rfl⟩

/-- The traces of a sequence are the concatenations of a trace of its first
part and a trace of what its value leads to. -/
theorem produces_bind (first : Program Answer Value) (next : Value → Program Answer Result)
    (trace : List (Exchange Answer)) (result : Result) :
    (first >>= next).Produces trace result ↔ ∃ before value after, trace = before ++ after ∧
        first.Produces before value ∧ (next value).Produces after result := by
  induction first generalizing trace with
  | done value =>
    constructor
    · intro produced
      exact ⟨[], value, trace, rfl, ⟨rfl, rfl⟩, produced⟩
    · rintro ⟨before, given, after, rfl, ⟨rfl, rfl⟩, produced⟩
      exact produced
  | call command _ induction =>
    constructor
    · rintro ⟨answer, rest, rfl, produced⟩
      obtain ⟨before, value, after, rfl, started, finished⟩ := (induction answer rest).mp produced
      exact ⟨⟨command, answer⟩ :: before, value, after, rfl,
        ⟨answer, before, rfl, started⟩, finished⟩
    · rintro ⟨before, value, after, rfl, ⟨answer, rest, rfl, started⟩, finished⟩
      exact ⟨answer, rest ++ after, rfl,
        (induction answer _).mpr ⟨rest, value, after, rfl, started, finished⟩⟩

variable {trace : List (Exchange Answer)} {result : Result}

theorem Produces.of_bind {first : Program Answer Value} {next : Value → Program Answer Result}
    (produced : (first >>= next).Produces trace result) :
    ∃ before value after, trace = before ++ after ∧
      first.Produces before value ∧ (next value).Produces after result :=
  (produces_bind _ _ _ _).mp produced

/-- A program whose value is discarded does what it does without that. -/
theorem Produces.of_discard {first : Program Answer Value} {default : Result}
    (produced : (first >>= fun _ => pure default).Produces trace result) :
    ∃ value, first.Produces trace value := by
  obtain ⟨before, value, _, rfl, ran, rfl, -⟩ := produced.of_bind
  exact ⟨value, by rwa [append_nil]⟩

theorem Produces.of_issue {command : Command} {next : Answer command → Program Answer Result}
    (produced : (issue command >>= next).Produces trace result) :
    ∃ answer rest, trace = ⟨command, answer⟩ :: rest ∧ (next answer).Produces rest result :=
  produced

theorem Produces.of_issueAll {commands : List Command}
    {result : Unit} (produced : (issueAll commands).Produces trace result) :
    trace.map Exchange.command = commands := by
  induction commands generalizing trace with
  | nil => rw [produced.1, map_nil]
  | cons _ _ induction =>
    obtain ⟨answer, rest, rfl, continued⟩ := produced
    rw [map_cons, induction continued]

def Performs (program : Program Answer Value) (trace : List (Exchange Answer)) : Prop :=
  ∃ rest value, program.Produces (trace ++ rest) value

variable {program : Program Answer Value} {value : Value}

theorem Produces.performs (produced : program.Produces trace value) : program.Performs trace :=
  ⟨[], value, by rwa [append_nil]⟩

def result? : Program Answer Value → Option Value
  | done value => some value
  | call _ _ => none

theorem produces_of_result? (finished : program.result? = some value) :
    program.Produces [] value := by
  cases program with
  | done =>
    obtain rfl := Option.some.inj finished
    exact ⟨rfl, rfl⟩
  | call => cases finished

theorem Produces.eq_of_append {first rest : List (Exchange Answer)} {other : Value}
    (finished : program.Produces first value) (continued : program.Produces (first ++ rest) other) :
    rest = [] ∧ other = value := by
  induction program generalizing first with
  | done =>
    obtain ⟨rfl, rfl⟩ := finished
    exact continued
  | call _ _ induction =>
    obtain ⟨answer, tail, rfl, tailProduced⟩ := finished
    obtain ⟨given, longer, same, longerProduced⟩ := continued
    obtain ⟨sameExchange, rfl⟩ := List.cons.inj same
    cases sameExchange
    exact induction answer tailProduced longerProduced

def Uses (allowed : Command → Prop) : Program Answer Value → Prop
  | done _ => True
  | call command next => allowed command ∧ ∀ answer, (next answer).Uses allowed

namespace Uses

variable {allowed : Command → Prop}

theorem issue {command : Command} (permitted : allowed command) :
    (issue command : Program Answer (Answer command)).Uses allowed :=
  ⟨permitted, fun _ => trivial⟩

theorem bind {first : Program Answer Value} {next : Value → Program Answer Result}
    (firstUses : first.Uses allowed) (nextUses : ∀ value, (next value).Uses allowed) :
    (first >>= next).Uses allowed := by
  induction first with
  | done value => exact nextUses value
  | call _ _ induction =>
    exact ⟨firstUses.1, fun answer => induction answer (firstUses.2 answer)⟩

theorem mono {larger : Command → Prop} {program : Program Answer Value}
    (uses : program.Uses allowed) (included : ∀ command, allowed command → larger command) :
    program.Uses larger := by
  induction program with
  | done => trivial
  | call command next induction =>
    exact ⟨included command uses.1, fun answer => induction answer (uses.2 answer)⟩

theorem of_mem {program : Program Answer Value} (uses : program.Uses allowed)
    {trace : List (Exchange Answer)} {value : Value} (produced : program.Produces trace value)
    {exchange : Exchange Answer} (member : exchange ∈ trace) : allowed exchange.command := by
  induction program generalizing trace with
  | done =>
    obtain ⟨rfl, -⟩ := produced
    cases member
  | call _ _ induction =>
    obtain ⟨answer, rest, rfl, continued⟩ := produced
    rcases mem_cons.mp member with rfl | member
    · exact uses.1
    · exact induction answer (uses.2 answer) continued member

end Uses

section Embedding

variable {Larger : Type} {LargerAnswer : Larger → Type}

def embed (inject : Command → Larger) :
    Program (fun command => LargerAnswer (inject command)) Value → Program LargerAnswer Value
  | done value => done value
  | call command next =>
    call (inject command) fun answer => (next answer).embed inject

theorem Uses.embed {inject : Command → Larger} {allowed : Larger → Prop}
    {program : Program (fun command => LargerAnswer (inject command)) Value}
    (uses : program.Uses fun command => allowed (inject command)) :
    (program.embed inject).Uses allowed := by
  induction program with
  | done => trivial
  | call _ _ induction =>
    exact ⟨uses.1, fun answer => induction answer (uses.2 answer)⟩

def embedExchange (inject : Command → Larger)
    (exchange : Exchange fun command => LargerAnswer (inject command)) :
    Exchange LargerAnswer :=
  ⟨inject exchange.command, exchange.answer⟩

theorem Produces.of_embed {inject : Command → Larger}
    {program : Program (fun command => LargerAnswer (inject command)) Value}
    {trace : List (Exchange LargerAnswer)} {value : Value}
    (produced : (program.embed inject).Produces trace value) :
    ∃ inner, trace = inner.map (embedExchange inject) ∧ program.Produces inner value := by
  induction program generalizing trace with
  | done =>
    obtain ⟨rfl, rfl⟩ := produced
    exact ⟨[], rfl, rfl, rfl⟩
  | call command _ induction =>
    obtain ⟨answer, rest, rfl, continued⟩ := produced
    obtain ⟨inner, rfl, innerProduced⟩ := induction answer continued
    exact ⟨⟨command, answer⟩ :: inner, rfl, answer, inner, rfl, innerProduced⟩

end Embedding

end Program

theorem exists_of_split_left {Item : Type*} {item : Item} {first second before after : List Item}
    (split : first ++ second = before ++ item :: after) (absent : item ∉ second) :
    ∃ between, first = before ++ item :: between ∧ after = between ++ second := by
  rcases append_eq_append_iff.mp split with
    ⟨between, _, late⟩ | ⟨between, early, late⟩
  · refine absurd ?_ absent
    rw [late]
    exact mem_append_right _ mem_cons_self
  · cases between with
    | nil =>
      rw [nil_append] at late
      exact absurd (late ▸ mem_cons_self) absent
    | cons head between =>
      obtain ⟨rfl, rfl⟩ := List.cons.inj late
      exact ⟨between, early, rfl⟩

theorem exists_of_split_right {Item : Type*} {item : Item} {first second before after : List Item}
    (split : first ++ second = before ++ item :: after) (absent : item ∉ first) :
    ∃ between, before = first ++ between := by
  rcases append_eq_append_iff.mp split with
    ⟨between, late, _⟩ | ⟨between, early, late⟩
  · exact ⟨between, late⟩
  · cases between with
    | nil => exact ⟨[], by rw [early, append_nil, append_nil]⟩
    | cons =>
      obtain ⟨rfl, _⟩ := List.cons.inj late
      refine absurd ?_ absent
      rw [early]
      exact mem_append_right _ mem_cons_self

end Purser.InteractionPrograms
