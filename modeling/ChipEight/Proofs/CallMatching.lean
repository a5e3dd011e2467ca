/-
Module: ChipEight.Proofs.CallMatching
Purpose: Calls and returns match like brackets. The executed calls and returns of a session are
  read as a word of brackets, faults and everything else left out. A call of that word is pending
  if no stretch of the events after it has more returns than calls. The open calls of a machine are
  exactly the pending calls, and whatever runs between a call and its return, the return goes on
  behind that call with the calls below it untouched.
Main exports: CallEvent, CallEvent.pending, Interpreter.callEvents, Interpreter.Tracks,
  Interpreter.tracks_after, Interpreter.calls_match_returns
-/
import ChipEight.Proofs.Invariant
import Mathlib.Data.List.Infix

namespace ChipEight

open Interpreter (Operation)

/-- An executed instruction that changes the open calls. -/
inductive CallEvent where
  /-- A call at a place. -/
  | call (place : UInt16)
  | ret
deriving DecidableEq, Repr

namespace CallEvent

/-- The event of an outcome at a place, if a call or a return was executed. -/
def ofOutcome? (place : UInt16) : Outcome → Option CallEvent
  | .executed (.call _) => some (.call place)
  | .executed .ret => some .ret
  | _ => none

def ofTurn? (t : Turn) : Option CallEvent := t.outcome?.bind (ofOutcome? t.place)

def isCall : CallEvent → Bool
  | .call _ => true
  | .ret => false

def calls (events : List CallEvent) : Nat := events.countP isCall

def returns (events : List CallEvent) : Nat := events.countP fun event => !event.isCall

/-- Some stretch at the beginning has more returns than calls: a call in front of it is matched. -/
def Closing (later : List CallEvent) : Prop :=
  ∃ n ≤ later.length, calls (later.take n) < returns (later.take n)

instance (later : List CallEvent) : Decidable (Closing later) :=
  inferInstanceAs (Decidable (∃ n ≤ later.length, _))

/-- The places of the calls that no return matches, the oldest first. -/
def pending : List CallEvent → List UInt16
  | [] => []
  | .call place :: later => if Closing later then pending later else place :: pending later
  | .ret :: later => pending later

/-! ### Bracket words

The returns that match no call are counted by a recursion of its own. A call in front of a word is
matched exactly if the word has such a return left over, and appending an event changes the pending
calls at their end.
-/

/-- How many returns match no call. -/
def strayReturns : List CallEvent → Nat
  | [] => 0
  | .call _ :: later => strayReturns later - 1
  | .ret :: later => strayReturns later + 1

@[simp] theorem calls_call (place : UInt16) (later : List CallEvent) :
    calls (.call place :: later) = calls later + 1 :=
  List.countP_cons_of_pos rfl

@[simp] theorem calls_ret (later : List CallEvent) : calls (.ret :: later) = calls later :=
  List.countP_cons_of_neg Bool.false_ne_true

@[simp] theorem returns_call (place : UInt16) (later : List CallEvent) :
    returns (.call place :: later) = returns later :=
  List.countP_cons_of_neg Bool.false_ne_true

@[simp] theorem returns_ret (later : List CallEvent) :
    returns (.ret :: later) = returns later + 1 :=
  List.countP_cons_of_pos rfl

/-- Some stretch at the beginning has more than `k` returns too many exactly if more than `k`
    returns match no call. -/
theorem exists_take_iff_lt_strayReturns (later : List CallEvent) (k : Nat) :
    (∃ n ≤ later.length, calls (later.take n) + k < returns (later.take n)) ↔
      k < strayReturns later := by
  induction later generalizing k with
  | nil => simp [calls, returns, strayReturns]
  | cons event later inductionHypothesis =>
      cases event with
      | call place =>
          -- A call in front makes up for one of the returns behind it.
          have shifted : k < strayReturns (.call place :: later) ↔ k + 1 < strayReturns later := by
            rw [strayReturns]
            omega
          rw [shifted, ← inductionHypothesis]
          constructor
          · rintro ⟨_ | n, bound, more⟩
            · simp [calls, returns] at more
            · simp only [List.take_succ_cons, calls_call, returns_call] at more
              exact ⟨n, Nat.le_of_succ_le_succ bound, by omega⟩
          · rintro ⟨n, bound, more⟩
            refine ⟨n + 1, Nat.succ_le_succ bound, ?_⟩
            simp only [List.take_succ_cons, calls_call, returns_call]
            omega
      | ret =>
          cases k with
          | zero =>
              refine iff_of_true ⟨1, by simp, ?_⟩ (Nat.succ_pos _)
              simp [calls, returns, isCall]
          | succ k =>
              -- A return in front is one of those that are too many.
              have shifted : k + 1 < strayReturns (.ret :: later) ↔ k < strayReturns later := by
                rw [strayReturns]
                omega
              rw [shifted, ← inductionHypothesis]
              constructor
              · rintro ⟨_ | n, bound, more⟩
                · simp [calls, returns] at more
                · simp only [List.take_succ_cons, calls_ret, returns_ret] at more
                  exact ⟨n, Nat.le_of_succ_le_succ bound, by omega⟩
              · rintro ⟨n, bound, more⟩
                refine ⟨n + 1, Nat.succ_le_succ bound, ?_⟩
                simp only [List.take_succ_cons, calls_ret, returns_ret]
                omega

theorem closing_iff (later : List CallEvent) : Closing later ↔ 0 < strayReturns later :=
  exists_take_iff_lt_strayReturns later 0

/-- Every event is a pending call, a stray return, or one of a matching pair. -/
theorem length_pending (events : List CallEvent) :
    (pending events).length + returns events = calls events + strayReturns events := by
  induction events with
  | nil => rfl
  | cons event later inductionHypothesis =>
      cases event with
      | call place =>
          rw [pending, returns_call, calls_call, strayReturns]
          split
          case isTrue closing =>
            have stray := (closing_iff later).mp closing
            omega
          case isFalse open_ =>
            have none : strayReturns later = 0 := by
              rw [closing_iff] at open_
              omega
            rw [List.length_cons]
            omega
      | ret =>
          rw [pending, returns_ret, calls_ret, strayReturns]
          omega

/-- A call at the end matches no return. -/
theorem strayReturns_concat_call (events : List CallEvent) (place : UInt16) :
    strayReturns (events ++ [.call place]) = strayReturns events := by
  induction events with
  | nil => rfl
  | cons event later inductionHypothesis =>
      cases event <;> simp only [List.cons_append, strayReturns, inductionHypothesis]

/-- A call at the end is pending. -/
theorem pending_concat_call (events : List CallEvent) (place : UInt16) :
    pending (events ++ [.call place]) = pending events ++ [place] := by
  induction events with
  | nil => rfl
  | cons event later inductionHypothesis =>
      cases event with
      | call first =>
          simp only [List.cons_append, pending, closing_iff, strayReturns_concat_call,
            inductionHypothesis]
          split <;> rfl
      | ret => exact inductionHypothesis

/-- A return at the end is stray if no call is pending. -/
theorem strayReturns_concat_ret (events : List CallEvent) :
    strayReturns (events ++ [.ret]) =
      strayReturns events + if pending events = [] then 1 else 0 := by
  induction events with
  | nil => rfl
  | cons event later inductionHypothesis =>
      cases event with
      | call place =>
          simp only [List.cons_append, strayReturns, inductionHypothesis, pending, closing_iff]
          -- With a return left over the call is matched and not pending; otherwise it stays for this return.
          by_cases closing : 0 < strayReturns later
          · rw [if_pos closing]
            omega
          · rw [if_neg closing, if_neg (List.cons_ne_nil _ _)]
            split <;> omega
      | ret =>
          simp only [List.cons_append, strayReturns, inductionHypothesis, pending]
          exact Nat.add_right_comm _ _ _

/-- A return at the end matches the youngest pending call. -/
theorem pending_concat_ret (events : List CallEvent) :
    pending (events ++ [.ret]) = (pending events).dropLast := by
  induction events with
  | nil => rfl
  | cons event later inductionHypothesis =>
      cases event with
      | call place =>
          simp only [List.cons_append, pending, closing_iff, strayReturns_concat_ret,
            inductionHypothesis]
          by_cases closing : 0 < strayReturns later
          · rw [if_pos (Nat.add_pos_left closing _), if_pos closing]
          · rw [if_neg closing]
            by_cases empty : pending later = []
            · simp [empty]
            · rw [if_neg (by simpa [empty] using closing), List.dropLast_cons_of_ne_nil empty]
      | ret => exact inductionHypothesis

example : pending [.ret, .call 0x200, .call 0x206, .ret] = [0x200] := by decide

end CallEvent

namespace Interpreter

variable {c c' e : Interpreter} {outcome : Outcome} {operation : Operation}

/-! ### Sessions as bracket words -/

/-- The executed calls and returns since the last restart. -/
def callEvents (turns : List Turn) : List CallEvent :=
  (sinceRestart turns).filterMap CallEvent.ofTurn?

theorem callEvents_concat (turns : List Turn) (t : Turn) :
    callEvents (turns ++ [t]) =
      if t.operation.restarts then [] else callEvents turns ++ (CallEvent.ofTurn? t).toList := by
  rw [callEvents, sinceRestart_concat]
  split
  · rfl
  · rw [List.filterMap_append, callEvents]
    cases event : CallEvent.ofTurn? t <;> simp [event]

/-- The open calls are the pending calls of a word that has no stray return. -/
structure Tracks (stack : List UInt16) (events : List CallEvent) : Prop where
  reverse_stack : stack.reverse = CallEvent.pending events
  balanced : CallEvent.strayReturns events = 0

theorem tracks_nil : Tracks [] [] := ⟨rfl, rfl⟩

/-- An execution changes the open calls as its event changes the pending calls. -/
theorem Tracks.execute {events : List CallEvent} (tracks : Tracks c.machine.stack events)
    (ran : c.execute = (outcome, c')) :
    Tracks c'.machine.stack
      (events ++ (CallEvent.ofOutcome? c.machine.pc outcome).toList) := by
  have opened := stack_of_execute ran
  have unchanged (same : c'.machine.stack = c.machine.stack) :
      Tracks c'.machine.stack (events ++ (none : Option CallEvent).toList) := by
    simp only [same, Option.toList_none, List.append_nil, tracks]
  cases outcome with
  | executed i =>
      cases i with
      | call addr =>
          have pushed : c'.machine.stack.reverse =
              CallEvent.pending events ++ [c.machine.pc] := by
            rw [opened, ← tracks.reverse_stack]
            exact List.reverse_cons
          refine ⟨?_, ?_⟩
          · exact pushed.trans (CallEvent.pending_concat_call _ _).symm
          · exact (CallEvent.strayReturns_concat_call _ _).trans tracks.balanced
      | ret =>
          -- A return that was executed found an open call, which it matches.
          obtain ⟨caller, rest, stack, left, -⟩ := pc_of_ret ran
          have pending : CallEvent.pending events = rest.reverse ++ [caller] := by
            rw [← tracks.reverse_stack, stack, List.reverse_cons]
          refine ⟨?_, ?_⟩
          · rw [left]
            refine Eq.trans ?_ (CallEvent.pending_concat_ret events).symm
            rw [pending, List.dropLast_concat]
          · refine (CallEvent.strayReturns_concat_ret events).trans ?_
            rw [tracks.balanced, pending, if_neg (by simp)]
      | _ => exact unchanged opened
  | waiting | fault => exact unchanged opened

/-- A turn changes the open calls as it changes the pending calls. -/
theorem Tracks.respond {turns : List Turn} (wellFormed : c.WellFormed)
    (tracks : Tracks c.machine.stack (callEvents turns)) (operation : Operation) :
    Tracks (c.respond operation).2.machine.stack (callEvents (turns ++ [c.turn operation])) := by
  cases restarting : operation.restarts with
  | true =>
      obtain ⟨memory, restarted⟩ := machine_of_restart wellFormed restarting
      rw [callEvents_concat, turn_operation, restarting, if_pos rfl, restarted]
      exact tracks_nil
  | false =>
      rw [callEvents_concat, turn_operation, restarting, if_neg Bool.false_ne_true]
      cases primed : c.primed? operation with
      | some e =>
          have same := sameControl_of_primed primed
          rw [← same.stack] at tracks
          rw [CallEvent.ofTurn?, outcome?_of_primed primed, respond_of_primed primed, turn_place,
            ← same.pc]
          exact tracks.execute rfl
      | none =>
          have same := (sameControl_respond primed restarting).stack
          rw [CallEvent.ofTurn?, outcome?_of_unprimed primed, same]
          simpa using tracks

/-- The open calls of a session are the pending calls of its events. -/
theorem tracks_after (built : c.Built) (operations : List Operation) :
    Tracks (c.after operations).machine.stack (callEvents (c.turns operations)) := by
  induction operations using List.reverseRecOn with
  | nil =>
      obtain ⟨memory, font, initial⟩ := built.machine_eq
      rw [after_nil, initial]
      exact tracks_nil
  | append_singleton operations operation inductionHypothesis =>
      rw [after_concat, turns_concat]
      exact inductionHypothesis.respond (built.wellFormed_after operations) operation

/-! ### From a call to its return -/

/-- What lies below a call stays, as long as the depth does not fall below it. -/
theorem suffix_openAfter {calls stack : List UInt16} (place : UInt16) (outcome : Outcome)
    (below : calls <:+ stack) (deep : calls.length ≤ (outcome.openAfter place stack).length) :
    calls <:+ outcome.openAfter place stack := by
  cases outcome with
  | executed i =>
      cases i with
      | call addr => exact below.trans (List.suffix_cons _ _)
      -- The shorter of two ends of one list is an end of the longer one.
      | ret => exact List.suffix_of_suffix_length_le below (List.tail_suffix _) deep
      | _ => exact below
  | waiting | fault => exact below

theorem suffix_respond {calls : List UInt16} (kept : operation.restarts = false)
    (below : calls <:+ c.machine.stack)
    (deep : calls.length ≤ (c.respond operation).2.machine.stack.length) :
    calls <:+ (c.respond operation).2.machine.stack := by
  cases primed : c.primed? operation with
  | some e =>
      rw [← (sameControl_of_primed primed).stack] at below
      rw [respond_of_primed primed] at deep ⊢
      have opened : e.execute.2.machine.stack = _ := stack_of_execute rfl
      rw [opened] at deep ⊢
      exact suffix_openAfter _ _ below deep
  | none =>
      rw [(sameControl_respond primed kept).stack]
      exact below

/-- A run that stays above a depth keeps everything up to that depth. -/
theorem suffix_after {calls : List UInt16} (below : calls <:+ c.machine.stack) (body : List Operation)
    (kept : ∀ operation ∈ body, operation.restarts = false)
    (deep : ∀ started, started <+: body → calls.length ≤ (c.after started).machine.stack.length) :
    calls <:+ (c.after body).machine.stack := by
  induction body using List.reverseRecOn with
  | nil => exact below
  | append_singleton body operation inductionHypothesis =>
      -- From the right, so that the depths before the last operation are those of the shorter run.
      have keptBody : ∀ operation ∈ body, operation.restarts = false := by
        intro operation member
        exact kept operation (List.mem_append_left _ member)
      have deepBody : ∀ started, started <+: body →
          calls.length ≤ (c.after started).machine.stack.length := by
        intro started prefix_
        exact deep started (prefix_.trans (List.prefix_append _ _))
      have deepLast := deep _ (List.prefix_refl _)
      rw [after_concat] at deepLast ⊢
      exact suffix_respond (kept operation (by simp)) (inductionHypothesis keptBody deepBody) deepLast

/-- A return that brings the depth back to that of a call goes on behind the call. -/
theorem respond_ret_of_suffix {place : UInt16} {calls : List UInt16}
    (below : place :: calls <:+ c.machine.stack)
    (returned : (c.respond operation).1 = .outcome (.executed .ret))
    (back : (c.respond operation).2.machine.stack.length = calls.length) :
    (c.respond operation).2.machine.pc = place + 2 ∧
      (c.respond operation).2.machine.stack = calls := by
  obtain ⟨e, primed, ran⟩ := primed_of_outcome returned
  obtain ⟨caller, rest, stack, left, resumed⟩ := pc_of_ret ran
  have whole : place :: calls = caller :: rest := by
    rw [← (sameControl_of_primed primed).stack, stack] at below
    apply below.eq_of_length
    rw [left] at back
    rw [List.length_cons, List.length_cons, back]
  cases whole
  exact ⟨resumed, left⟩

/-- Calls and returns match over whole sessions. When an operation executes a call, and after any
    further operations that restart nothing and keep the depth above that of the call a return
    brings it back, then the program goes on behind the call and the open calls are those that
    were open before it. And at any time the open calls, counted as executed calls without
    executed returns, are the pending calls since the last restart. -/
theorem calls_match_returns (built : c.Built) (history : List Operation) :
    (∀ call addr body ret,
      ((c.after history).respond call).1 = .outcome (.executed (.call addr)) →
      (∀ operation ∈ body, operation.restarts = false) →
      (∀ started, started <+: body →
        (c.after history).machine.stack.length <
          (c.after (history ++ call :: started)).machine.stack.length) →
      ((c.after (history ++ call :: body)).respond ret).1 = .outcome (.executed .ret) →
      (c.after (history ++ call :: body ++ [ret])).machine.stack.length =
        (c.after history).machine.stack.length →
      (c.after (history ++ call :: body ++ [ret])).machine.pc = (c.after history).machine.pc + 2 ∧
        (c.after (history ++ call :: body ++ [ret])).machine.stack =
          (c.after history).machine.stack) ∧
    (c.after history).machine.stack.length + CallEvent.returns (callEvents (c.turns history)) =
      CallEvent.calls (callEvents (c.turns history)) ∧
    (c.after history).machine.stack.reverse = CallEvent.pending (callEvents (c.turns history)) := by
  refine ⟨?_, ?_, (tracks_after built history).reverse_stack⟩
  · intro call addr body ret called kept deep returned back
    -- Behind the call, its place and what was open before it are an end of the open calls.
    obtain ⟨e, primed, ran⟩ := primed_of_outcome called
    have same := sameControl_of_primed primed
    have pushed : ((c.after history).respond call).2.machine.stack =
        (c.after history).machine.pc :: (c.after history).machine.stack := by
      rw [← same.pc, ← same.stack]
      exact stack_of_execute ran
    simp only [after_append, after_cons, after_nil] at deep returned back ⊢
    have below : (c.after history).machine.pc :: (c.after history).machine.stack <:+
        ((c.after history).respond call).2.machine.stack := by
      rw [pushed]
    exact respond_ret_of_suffix (suffix_after below body kept deep) returned back
  · have tracks := tracks_after built history
    have counted := CallEvent.length_pending (callEvents (c.turns history))
    rw [← tracks.reverse_stack, List.length_reverse, tracks.balanced] at counted
    exact counted

/-- A program that calls a routine, which calls another one, which holds a word that is no
    instruction. -/
def nestedCalls : List UInt8 :=
  [0x22, 0x06, 0x12, 0x02, 0x00, 0x00, 0x22, 0x0A, 0x00, 0xEE, 0xFF, 0xFF, 0x00, 0xEE]

/-- The outer call returns behind itself after the inner call, a fault, a key and the inner return. -/
theorem calls_match_returns_nestedCalls :
    ((ofProgram nestedCalls).after [.step, .step, .machine (.setKey 5 true), .step, .step, .step]
      ).machine.pc = (ofProgram nestedCalls).machine.pc + 2 ∧
    ((ofProgram nestedCalls).after [.step, .step, .machine (.setKey 5 true), .step, .step, .step]
      ).machine.stack = (ofProgram nestedCalls).machine.stack := by
  -- One evaluation of the whole session for all that the theorem asks of it.
  obtain ⟨called, deep, returned, back⟩ :
      ((ofProgram nestedCalls).respond .step).1 = .outcome (.executed (.call 0x206)) ∧
      (∀ started ∈ [Operation.step, .machine (.setKey 5 true), .step, .step].inits,
        (ofProgram nestedCalls).machine.stack.length <
          ((ofProgram nestedCalls).after (.step :: started)).machine.stack.length) ∧
      (((ofProgram nestedCalls).after
        [.step, .step, .machine (.setKey 5 true), .step, .step]).respond .step).1 =
          .outcome (.executed .ret) ∧
      ((ofProgram nestedCalls).after [.step, .step, .machine (.setKey 5 true), .step, .step, .step]
        ).machine.stack.length = (ofProgram nestedCalls).machine.stack.length := by
    decide +kernel
  have built : (ofProgram nestedCalls).Built := built_ofProgram (by decide)
  have matched := (calls_match_returns built []).1 .step 0x206
    [.step, .machine (.setKey 5 true), .step, .step] .step
  simp only [List.nil_append, List.cons_append] at matched
  exact matched called (by decide)
    (fun started begun => deep started ((List.mem_inits _ _).mpr begun)) returned back

end Interpreter

end ChipEight
