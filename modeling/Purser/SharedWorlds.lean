import Purser.InteractionPrograms

/-!
# Programs in a shared world

A world decides which answers it can give to a command and what each exchange
changes.  Several programs take turns in it: a history records who took part in
which exchange.
-/

namespace Purser.SharedWorlds

open InteractionPrograms Program List

variable {Command : Type} {Answer : Command → Type} {World : Type}

variable {exchange : Exchange Answer}

structure Interface (Answer : Command → Type) (World : Type) where
  Allows : World → Exchange Answer → Prop
  effect : World → Exchange Answer → World

namespace Interface

variable (interface : Interface Answer World)

def after (world : World) (trace : List (Exchange Answer)) : World :=
  trace.foldl interface.effect world

def Accepts : World → List (Exchange Answer) → Prop
  | _, [] => True
  | world, exchange :: rest =>
    interface.Allows world exchange ∧ Accepts (interface.effect world exchange) rest

instance decidableAccepts
    [∀ world exchange, Decidable (interface.Allows world exchange)] :
    (world : World) → (trace : List (Exchange Answer)) → Decidable (interface.Accepts world trace)
  | _, [] => isTrue trivial
  | world, exchange :: rest =>
    have := decidableAccepts (interface.effect world exchange) rest
    inferInstanceAs (Decidable (_ ∧ _))

variable {interface}

section

variable (world : World)

include world

@[simp]
theorem after_nil : interface.after world [] = world := rfl

@[simp]
theorem after_cons (exchange : Exchange Answer) (rest : List (Exchange Answer)) :
    interface.after world (exchange :: rest) =
      interface.after (interface.effect world exchange) rest :=
  rfl

@[simp]
theorem after_append (before rest : List (Exchange Answer)) :
    interface.after world (before ++ rest) = interface.after (interface.after world before) rest :=
  foldl_append

@[simp]
theorem accepts_nil : interface.Accepts world [] :=
  trivial

@[simp]
theorem accepts_cons (exchange : Exchange Answer) (rest : List (Exchange Answer)) :
    interface.Accepts world (exchange :: rest) ↔ interface.Allows world exchange ∧
        interface.Accepts (interface.effect world exchange) rest :=
  Iff.rfl

@[simp]
theorem accepts_append (before rest : List (Exchange Answer)) :
    interface.Accepts world (before ++ rest) ↔ interface.Accepts world before ∧
        interface.Accepts (interface.after world before) rest := by
  induction before generalizing world with
  | nil => simp
  | cons _ _ induction => simp [induction, and_assoc]

end

theorem Accepts.of_append {before rest : List (Exchange Answer)} {world : World}
    (accepted : interface.Accepts world (before ++ rest)) :
    interface.Accepts world before ∧ interface.Accepts (interface.after world before) rest :=
  (accepts_append _ _ _).mp accepted

theorem Accepts.exists_allows {trace : List (Exchange Answer)} {world : World}
    (accepted : interface.Accepts world trace) (member : exchange ∈ trace) :
    ∃ before rest, trace = before ++ exchange :: rest ∧
      interface.Allows (interface.after world before) exchange := by
  obtain ⟨before, rest, rfl⟩ := append_of_mem member
  exact ⟨before, rest, rfl, accepted.of_append.2.1⟩

/-- The frame rule: a part of the world that no exchange touches stays. -/
theorem view_after {View : Type*} (view : World → View) {trace : List (Exchange Answer)}
    (untouched : ∀ exchange ∈ trace, ∀ world,
      view (interface.effect world exchange) = view world) (world : World) :
    view (interface.after world trace) = view world := by
  induction trace generalizing world with
  | nil => rfl
  | cons exchange rest induction =>
    rw [after_cons, induction]
    · exact untouched exchange mem_cons_self world
    · intro other member
      exact untouched other (mem_cons_of_mem _ member)

section Play

variable (interface) {Value : Type}

def play (respond : World → (command : Command) → Answer command)
    (world : World) (program : Program Answer Value) :
    List (Exchange Answer) × Value :=
  program.run (fun history => respond (interface.after world history)) []

variable {interface}

theorem produces_play (respond : World → (command : Command) → Answer command) (world : World)
    (program : Program Answer Value) :
    program.Produces (interface.play respond world program).1
      (interface.play respond world program).2 :=
  produces_run _ program []

theorem accepts_play {respond : World → (command : Command) → Answer command}
    (allowed : ∀ world command,
      interface.Allows world ⟨command, respond world command⟩) (world : World)
    (program : Program Answer Value) :
    interface.Accepts world (interface.play respond world program).1 := by
  have fromHistory : ∀ history,
      interface.Accepts (interface.after world history)
        (program.run (fun history => respond (interface.after world history)) history).1 := by
    induction program with
    | done => exact fun _ => trivial
    | call command next induction =>
      intro history
      refine ⟨allowed _ command, ?_⟩
      have later := induction (respond (interface.after world history) command)
        (history ++ [⟨command, respond (interface.after world history) command⟩])
      rwa [after_append] at later
  exact fromHistory []

end Play

end Interface

section Histories

variable {Thread Value : Type} [DecidableEq Thread]

abbrev History (Thread : Type) (Answer : Command → Type) : Type := List (Thread × Exchange Answer)

/-- What one thread has said and heard. -/
def ownPart (thread : Thread) (history : History Thread Answer) : List (Exchange Answer) :=
  (history.filter fun entry => entry.1 = thread).map Prod.snd

theorem ownPart_append (thread : Thread) (before rest : History Thread Answer) :
    ownPart thread (before ++ rest) = ownPart thread before ++ ownPart thread rest := by
  simp [ownPart]

theorem ownPart_cons_self (thread : Thread) (exchange : Exchange Answer)
    (rest : History Thread Answer) :
    ownPart thread ((thread, exchange) :: rest) = exchange :: ownPart thread rest := by
  simp [ownPart]

variable {thread : Thread}

theorem ownPart_cons_of_ne {other : Thread} (different : other ≠ thread)
    (exchange : Exchange Answer) (rest : History Thread Answer) :
    ownPart thread ((other, exchange) :: rest) = ownPart thread rest := by
  simp [ownPart, different]

theorem mem_ownPart {history : History Thread Answer} :
    exchange ∈ ownPart thread history ↔ (thread, exchange) ∈ history := by
  simp [ownPart]

theorem exists_of_ownPart_eq_cons {history : History Thread Answer} {later : List (Exchange Answer)}
    (own : ownPart thread history = exchange :: later) :
    ∃ before rest, history = before ++ (thread, exchange) :: rest ∧
      ownPart thread before = [] ∧ ownPart thread rest = later := by
  induction history with
  | nil => cases own
  | cons entry history induction =>
    obtain ⟨other, said⟩ := entry
    by_cases same : other = thread
    · subst same
      rw [ownPart_cons_self] at own
      obtain ⟨rfl, rfl⟩ := List.cons.inj own
      exact ⟨[], history, rfl, rfl, rfl⟩
    · rw [ownPart_cons_of_ne same] at own
      obtain ⟨before, rest, rfl, silent, restEq⟩ := induction own
      refine ⟨(other, said) :: before, rest, rfl, ?_, restEq⟩
      rw [ownPart_cons_of_ne same, silent]

def tagged (thread : Thread) (trace : List (Exchange Answer)) : History Thread Answer :=
  trace.map (Prod.mk thread)

omit [DecidableEq Thread] in
theorem map_snd_tagged (thread : Thread) (trace : List (Exchange Answer)) :
    (tagged thread trace).map Prod.snd = trace := by
  simp [tagged, Function.comp_def]

theorem ownPart_tagged_self (thread : Thread) (trace : List (Exchange Answer)) :
    ownPart thread (tagged thread trace) = trace := by
  simp [ownPart, tagged, filter_map, Function.comp_def]

theorem ownPart_tagged_of_ne {other : Thread} (different : other ≠ thread)
    (trace : List (Exchange Answer)) : ownPart thread (tagged other trace) = [] := by
  simp [ownPart, tagged, filter_map, Function.comp_def, different]

structure Interleaves (interface : Interface Answer World)
    (programs : Thread → Program Answer Value) (world : World)
    (history : History Thread Answer) : Prop where
  accepted : interface.Accepts world (history.map Prod.snd)
  performed : ∀ thread, (programs thread).Performs (ownPart thread history)

namespace Interleaves

variable {interface : Interface Answer World} {programs : Thread → Program Answer Value}
  {world : World} {before rest : History Thread Answer}

variable {thread : Thread}

/-- What a thread has said is the beginning of a finished trace of it. -/
theorem performs_cons
    (interleaves : Interleaves interface programs world (before ++ (thread, exchange) :: rest)) :
    (programs thread).Performs (ownPart thread before ++ exchange :: ownPart thread rest) := by
  have performed := interleaves.performed thread
  rwa [ownPart_append, ownPart_cons_self] at performed

theorem allows_cons
    (interleaves : Interleaves interface programs world (before ++ (thread, exchange) :: rest)) :
    interface.Allows (interface.after world (before.map Prod.snd)) exchange := by
  have accepted := interleaves.accepted
  rw [map_append, Interface.accepts_append] at accepted
  exact accepted.2.1

/-- A thread that has come to its end takes no further part. -/
theorem silent_of_produces (interleaves : Interleaves interface programs world (before ++ rest))
    {value : Value} (finished : (programs thread).Produces (ownPart thread before) value) :
    ownPart thread rest = [] := by
  obtain ⟨later, other, produced⟩ := interleaves.performed thread
  rw [ownPart_append, append_assoc] at produced
  exact (append_eq_nil_iff.mp (finished.eq_of_append produced).1).1

end Interleaves

section Schedules

variable (interface : Interface Answer World)
  (respond : World → (command : Command) → Answer command)

def scheduled : List Thread → World → (Thread → Program Answer Value) →
    History Thread Answer × (Thread → Program Answer Value)
  | [], _, programs => ([], programs)
  | thread :: threads, world, programs =>
    match programs thread with
    | .done _ => scheduled threads world programs
    | .call command next =>
      let exchange : Exchange Answer := ⟨command, respond world command⟩
      let later := scheduled threads (interface.effect world exchange)
        (Function.update programs thread (next exchange.answer))
      ((thread, exchange) :: later.1, later.2)

variable {interface respond}

def Leads (program : Program Answer Value) (trace : List (Exchange Answer))
    (left : Program Answer Value) : Prop :=
  ∀ rest value, left.Produces rest value → program.Produces (trace ++ rest) value

theorem leads_scheduled (threads : List Thread) (world : World)
    (programs : Thread → Program Answer Value) (thread : Thread) :
    Leads (programs thread)
      (ownPart thread (scheduled interface respond threads world programs).1)
      ((scheduled interface respond threads world programs).2 thread) := by
  induction threads generalizing world programs with
  | nil => exact fun rest value produced => produced
  | cons next _ induction =>
    rw [scheduled]
    cases current : programs next with
    | done => exact induction world programs
    | call command continuation =>
      have later := induction (interface.effect world ⟨command, respond world command⟩)
        (Function.update programs next (continuation (respond world command)))
      by_cases same : next = thread
      · subst same
        rw [ownPart_cons_self, current]
        rw [Function.update_self] at later
        intro rest value produced
        exact ⟨_, _, rfl, later rest value produced⟩
      · rw [ownPart_cons_of_ne same]
        rwa [Function.update_of_ne (Ne.symm same)] at later

section

variable (allowed : ∀ world command, interface.Allows world ⟨command, respond world command⟩)
  (threads : List Thread) (world : World) (programs : Thread → Program Answer Value)

include allowed threads world programs

theorem accepts_scheduled : interface.Accepts world
      ((scheduled interface respond threads world programs).1.map Prod.snd) := by
  induction threads generalizing world programs with
  | nil => trivial
  | cons next _ induction =>
    rw [scheduled]
    cases programs next with
    | done => exact induction world programs
    | call command => exact ⟨allowed world command, induction _ _⟩

theorem interleaves_scheduled : Interleaves interface programs world
      (scheduled interface respond threads world programs).1 where
  accepted := accepts_scheduled allowed threads world programs
  performed thread := by
    have produced := produces_run (fun _ => respond world)
      ((scheduled interface respond threads world programs).2 thread) []
    exact ⟨_, _, leads_scheduled threads world programs thread _ _ produced⟩

end

theorem scheduled_append (first second : List Thread) (world : World)
    (programs : Thread → Program Answer Value) :
    (scheduled interface respond (first ++ second) world programs).1 =
      (scheduled interface respond first world programs).1 ++ (scheduled interface respond second
          (interface.after world
            ((scheduled interface respond first world programs).1.map Prod.snd))
          (scheduled interface respond first world programs).2).1 := by
  induction first generalizing world programs with
  | nil => rfl
  | cons next _ induction =>
    rw [cons_append, scheduled, scheduled]
    cases programs next with
    | done => exact induction world programs
    | call =>
      dsimp only
      rw [induction]
      rfl

theorem produces_scheduled {threads : List Thread} {world : World}
    {programs : Thread → Program Answer Value} {thread : Thread} {value : Value}
    (finished : ((scheduled interface respond threads world programs).2 thread).result? =
      some value) :
    (programs thread).Produces
      (ownPart thread (scheduled interface respond threads world programs).1) value := by
  have produced := leads_scheduled threads world programs thread [] value
    (produces_of_result? finished)
  rwa [append_nil] at produced

end Schedules

end Histories

end Purser.SharedWorlds
