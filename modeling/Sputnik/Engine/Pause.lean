import Mathlib.Data.List.Induction
import Sputnik.Engine.Impl

/-!
This module contains the pause of the backend as a function of the last command, and that the
engine, whose query clears an expired deadline, answers as this function does.
-/

namespace Sputnik

variable {F : Type}

inductive PauseCommand where
  | setPause
  | setPauseUntil (theDeadLine : Int)
  | setContinue
  deriving DecidableEq, Repr

inductive PauseCall (F : Type) where
  | command (c : PauseCommand)
  | isPaused (thePlatform : Platform F)

namespace PauseCommand

def Pauses (now : Int) : PauseCommand → Prop
  | setPause => True
  | setPauseUntil theDeadLine => now < theDeadLine
  | setContinue => False

-- The last command decides, and the configured state where there is none.
def Paused (pause : Bool) (commands : List PauseCommand) (now : Int) : Prop :=
  commands.getLast?.elim (pause = true) (Pauses now)

@[simp]
theorem paused_nil (pause : Bool) (now : Int) : Paused pause [] now ↔ pause = true := Iff.rfl

@[simp]
theorem paused_concat (pause : Bool) (commands : List PauseCommand) (c : PauseCommand) (now : Int)
    : Paused pause (commands ++ [c]) now ↔ c.Pauses now := by
  simp [Paused]

end PauseCommand

namespace PauseCall

def command? : PauseCall F → Option PauseCommand
  | command c => some c
  | isPaused _ => none

def now? : PauseCall F → Option Int
  | command _ => none
  | isPaused thePlatform => some thePlatform.universalTime

def commands (calls : List (PauseCall F)) : List PauseCommand := calls.filterMap command?

def clocks (calls : List (PauseCall F)) : List Int := calls.filterMap now?

@[simp]
theorem commands_append (calls calls' : List (PauseCall F))
    : commands (calls ++ calls') = commands calls ++ commands calls' := List.filterMap_append

@[simp]
theorem clocks_append (calls calls' : List (PauseCall F))
    : clocks (calls ++ calls') = clocks calls ++ clocks calls' := List.filterMap_append

@[simp]
theorem commands_isPaused (thePlatform : Platform F) : commands [isPaused thePlatform] = [] := rfl

@[simp]
theorem commands_map_command (l : List PauseCommand)
    : commands (l.map (command (F := F))) = l := by
  unfold commands
  rw [List.filterMap_map]
  exact List.filterMap_some

@[simp]
theorem clocks_map_command (l : List PauseCommand)
    : clocks (l.map (command (F := F))) = [] := by
  unfold clocks
  rw [List.filterMap_map]
  exact List.filterMap_none l

end PauseCall

namespace Engine

def instruct (e : Engine F) : PauseCommand → Engine F
  | .setPause => e.setPause
  | .setPauseUntil theDeadLine => e.setPauseUntil theDeadLine
  | .setContinue => e.setContinue

def call (e : Engine F) : PauseCall F → Engine F
  | .command c => e.instruct c
  | .isPaused thePlatform => (e.isPaused thePlatform).2

theorem isPaused_iff (e : Engine F) (thePlatform : Platform F)
    : (e.isPaused thePlatform).1 = true
        ↔
      e.itsPaused = true ∧ ∀ d, e.itsPauseDeadLine = some d → thePlatform.universalTime < d := by
  unfold isPaused
  split
  . split
    . simp [*]
    . split
      . simp [*]
      . simp [*]
  . simp [*]

theorem isPaused_instruct (e : Engine F) (c : PauseCommand) (thePlatform : Platform F)
    : ((e.instruct c).isPaused thePlatform).1 = true ↔ c.Pauses thePlatform.universalTime := by
  rw [isPaused_iff]
  cases c with
  | setPause => simp [instruct, setPause, PauseCommand.Pauses]
  | setPauseUntil theDeadLine => simp [instruct, setPauseUntil, PauseCommand.Pauses]
  | setContinue => simp [instruct, setContinue, PauseCommand.Pauses]

-- What the query clears has expired, and stays so.
theorem isPaused_isPaused (e : Engine F) {thePlatform later : Platform F}
    (hclock : thePlatform.universalTime ≤ later.universalTime)
    : ((e.isPaused thePlatform).2.isPaused later).1 = (e.isPaused later).1 := by
  rw [Bool.eq_iff_iff, isPaused_iff, isPaused_iff]
  unfold isPaused
  split
  . split
    . rfl
    . next d hd =>
      split
      . rfl
      . next hexpired =>
        constructor
        . rintro ⟨hpaused, -⟩
          contradiction
        . rintro ⟨-, hbefore⟩
          have := hbefore d hd
          omega
  . rfl

variable [FloatArith F]

theorem isPaused_new (config : EngineConfig F) (pause : Bool) (thePlatform : Platform F)
    : ((new config pause).isPaused thePlatform).1 = true ↔ pause = true := by
  rw [isPaused_iff]
  simp [new]

-- The simulation: the two agree at every time that no query has seen the other side of.
theorem isPaused_foldl (config : EngineConfig F) (pause : Bool) (calls : List (PauseCall F))
    (thePlatform : Platform F)
    (hclock : ∀ now ∈ PauseCall.clocks calls, now ≤ thePlatform.universalTime)
    : ((calls.foldl call (new config pause)).isPaused thePlatform).1 = true
        ↔
      PauseCommand.Paused pause (PauseCall.commands calls) thePlatform.universalTime := by
  induction calls using List.reverseRecOn with
  | nil => apply isPaused_new
  | append_singleton calls c ih =>
    simp only [PauseCall.clocks_append, List.mem_append] at hclock
    rw [List.foldl_append, List.foldl_cons, List.foldl_nil, PauseCall.commands_append]
    cases c with
    | command c =>
      rw [call, isPaused_instruct]
      apply (PauseCommand.paused_concat _ _ _ _).symm
    | isPaused earlier =>
      have hearlier : earlier.universalTime ≤ thePlatform.universalTime := by
        apply hclock
        right
        apply List.mem_singleton_self
      rw [call, isPaused_isPaused _ hearlier, ih fun now hnow => hclock now (.inl hnow),
        PauseCall.commands_isPaused, List.append_nil]

/--
Each query answers what the last command before it says, whatever queries came between them: those
that clear an expired deadline change no later answer.
-/
theorem isPaused_refines (config : EngineConfig F) (pause : Bool)
    (calls before after : List (PauseCall F)) (thePlatform : Platform F)
    (hclock : (PauseCall.clocks calls).Pairwise (· ≤ ·))
    (hcalls : calls = before ++ .isPaused thePlatform :: after)
    : (((before.foldl call (new config pause)).isPaused thePlatform).1 = true
          ↔
        PauseCommand.Paused pause (PauseCall.commands before) thePlatform.universalTime)
      ∧ ((before.foldl call (new config pause)).isPaused thePlatform).1
          =
        (((PauseCall.commands before).foldl instruct (new config pause)).isPaused thePlatform).1
    := by
  have hbefore : ∀ now ∈ PauseCall.clocks before, now ≤ thePlatform.universalTime := by
    intro now hnow
    rw [hcalls, PauseCall.clocks_append, List.pairwise_append] at hclock
    apply hclock.2.2 now hnow
    apply List.mem_cons_self
  have hrun := isPaused_foldl config pause before thePlatform hbefore
  refine ⟨hrun, ?_⟩
  have hcommands := isPaused_foldl config pause
    ((PauseCall.commands before).map .command) thePlatform (by simp)
  rw [List.foldl_map, PauseCall.commands_map_command, ← hrun] at hcommands
  rw [Bool.eq_iff_iff]
  exact hcommands.symm

section Sample

open Sample

def asks (now : Int) : PauseCall Rat := .isPaused { platform with universalTime := now }

theorem isPaused_refines_sample
    : (([.command (.setPauseUntil 10), asks 5, asks 12].foldl call (new config false)).isPaused
        { platform with universalTime := 13 }).1 = false := by
  have hrefines := isPaused_refines config false
    [.command (.setPauseUntil 10), asks 5, asks 12, asks 13]
    [.command (.setPauseUntil 10), asks 5, asks 12] [] { platform with universalTime := 13 }
    (by decide) rfl
  have hexpired : ¬(13 : Int) < 10 := by decide
  rw [← Bool.not_eq_true, hrefines.1]
  exact hexpired

end Sample

end Engine

end Sputnik
