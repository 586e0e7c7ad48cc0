import Xv6Net.Net.ArpSystem

/-! The processes that wait in `arp_resolve`. Whoever sleeps on a slot waits for the address
that the slot is requested for, whatever the other processes and the interrupts do.
-/

namespace Xv6Net

open Library Memory Transition Function

section

variable {k : Kernel} {pid other : Nat} {chan c : Chan}

theorem Kernel.asleepOn_sleep
    : (k.sleep pid chan).AsleepOn other c
      ↔ if other = pid then c = chan else k.AsleepOn other c := by
  by_cases same : other = pid
  · subst same
    simp [AsleepOn, sleep, setProc, eq_comm]
  · simp [AsleepOn, sleep, setProc, same]

theorem Kernel.AsleepOn.of_tidyUp (asleep : (k.tidyUp pid).AsleepOn other c)
    : k.AsleepOn other c := by
  by_cases same : other = pid
  · subst same
    simp [AsleepOn, tidyUp, setProc] at asleep
  · simpa [AsleepOn, tidyUp, setProc, same] using asleep

theorem Kernel.AsleepOn.of_kill (asleep : (k.kill pid).AsleepOn other c)
    : k.AsleepOn other c := by
  by_cases same : other = pid
  · subst same
    obtain ⟨sleeping, chan⟩ := asleep
    simp only [kill, setProc, update_self] at sleeping chan
    split at sleeping
    · cases sleeping
    · exact ⟨sleeping, chan⟩
  · simpa [AsleepOn, kill, setProc, same] using asleep

theorem Kernel.asleepOn_answer {i : Nat} {mac : List UInt8}
    : (k.answer i mac).AsleepOn pid c ↔ k.AsleepOn pid c ∧ c ≠ .arp i := by
  have entry : (k.answer i mac).procs pid
      = if (k.procs pid).state = .sleeping ∧ (k.procs pid).chan = some (.arp i) then
          { k.procs pid with state := .runnable }
        else
          k.procs pid := rfl
  rw [AsleepOn, entry]
  split
  · rename_i woken
    refine iff_of_false (fun asleep => nomatch asleep.1) fun asleep => asleep.2 ?_
    exact Option.some.inj (asleep.1.2.symm.trans woken.2)
  · rename_i notWoken
    refine ⟨fun asleep => ⟨asleep, ?_⟩, fun asleep => asleep.1⟩
    rintro rfl
    exact notWoken asleep

end

theorem ArpSys.Runnable.not_asleep {sys : ArpSys} {pid : Nat} {chan : Chan}
    (runnable : sys.Runnable pid)
    : ¬ sys.kernel.AsleepOn pid chan := by
  rintro ⟨sleeping, -⟩
  rw [runnable.2] at sleeping
  cases sleeping

namespace ArpSys

/-- The process waits in `arp_resolve` for the address that slot `i` is requested for. -/
def Awaits (sys : ArpSys) (pid i : Nat) : Prop :=
  ∃ dst, sys.pc pid = .waiting dst i
    ∧ i < arpCacheSize
    ∧ (sys.kernel.arp i).status = .requested
    ∧ (sys.kernel.arp i).ip = sys.kernel.nextHop dst

def WaitersOk (sys : ArpSys) : Prop :=
  ∀ pid i, sys.kernel.AsleepOn pid (.arp i) → sys.Awaits pid i

theorem Awaits.kept {sys next : ArpSys} {pid i : Nat} (awaits : sys.Awaits pid i)
    (hop : next.kernel.nextHop = sys.kernel.nextHop) (located : next.pc pid = sys.pc pid)
    (slot : (sys.kernel.arp i).status = .requested → next.kernel.arp i = sys.kernel.arp i)
    : next.Awaits pid i := by
  obtain ⟨dst, waiting, inside, requested, holds⟩ := awaits
  refine ⟨dst, located.trans waiting, inside, ?_, ?_⟩
  · rw [slot requested, requested]
  · rw [slot requested, hop, holds]

/-- The slot that `arp_alloc` takes is not one that is waited for. -/
theorem requested_ne_taken {k : Kernel} {i j : Nat} (requested : (k.arp i).status = .requested)
    (taken : k.arpTaken = some j)
    : i ≠ j := by
  rintro rfl
  exact arpTaken_not_requested taken requested

theorem WaitersOk.step {sys next : ArpSys} {action : ArpAction} (ok : sys.WaitersOk)
    (step : ArpStep sys action next)
    : next.WaitersOk := by
  intro pid i asleep
  cases step with
  | broadcast | cached | ignored => exact ok pid i asleep
  | found env caller dst slot runnable found | copy caller dst slot runnable located =>
    have other : pid ≠ caller := by
      rintro rfl
      exact runnable.not_asleep asleep
    exact (ok pid i asleep).kept rfl (update_of_ne other ..) fun _ => rfl
  | waits env caller dst slot runnable waited =>
    have spec := Kernel.asleepOn_sleep.mp asleep
    split at spec
    · rename_i same
      subst same
      obtain rfl := Chan.arp.inj spec
      obtain ⟨inside, holds, requested⟩ := arpRequested_spec waited
      exact ⟨dst, update_self .., inside, requested, holds⟩
    · rename_i other
      exact (ok pid i spec).kept rfl (update_of_ne other ..) fun _ => rfl
  | asks env caller dst slot runnable searched waited taken =>
    have spec := Kernel.asleepOn_sleep.mp asleep
    split at spec
    · rename_i same
      subst same
      obtain rfl := Chan.arp.inj spec
      have entry : (sys.kernel.request i (sys.kernel.nextHop dst)).arp i
          = { sys.kernel.arp i with ip := sys.kernel.nextHop dst, status := .requested } :=
        update_self ..
      exact ⟨dst, update_self .., (arpTaken_spec taken).1,
        congrArg ArpEntry.status entry, congrArg ArpEntry.ip entry⟩
    · rename_i other
      refine (ok pid i spec).kept rfl (update_of_ne other ..) fun requested => ?_
      exact update_of_ne (requested_ne_taken requested taken) ..
  | resume caller dst slot runnable =>
    have before := asleep.of_tidyUp
    have other : pid ≠ caller := by
      rintro rfl
      exact runnable.not_asleep before
    exact (ok pid i before).kept rfl (update_of_ne other ..) fun _ => rfl
  | added env ip mac slot searched waited | answered env arpPkt slot reply waited =>
    obtain ⟨before, other⟩ := Kernel.asleepOn_answer.mp asleep
    have unanswered : i ≠ slot := fun same => other (congrArg Chan.arp same)
    exact (ok pid i before).kept rfl rfl fun _ => update_of_ne unanswered ..
  | stored env ip mac slot searched waited taken =>
    refine (ok pid i asleep).kept rfl rfl fun requested => ?_
    exact update_of_ne (requested_ne_taken requested taken) ..
  | clock => exact (ok pid i asleep).kept rfl rfl fun _ => rfl
  | kill => exact (ok pid i asleep.of_kill).kept rfl rfl fun _ => rfl

end ArpSys

/-- Nobody sleeps on a slot that the step has taken out of REQUESTED, and nobody slept on a
slot that it takes for another address.
-/
structure ServesWaiters (sys : ArpSys) (action : ArpAction) (next : ArpSys) : Prop where
  answered
    : ∀ i, (sys.kernel.arp i).status = .requested
        → (next.kernel.arp i).status ≠ .requested
        → ∀ pid, ¬ next.kernel.AsleepOn pid (.arp i)
  evicted : ∀ i, sys.Evicts i action → ∀ pid, ¬ sys.kernel.AsleepOn pid (.arp i)

theorem ArpSys.WaitersOk.serves {sys next : ArpSys} {action : ArpAction} (ok : sys.WaitersOk)
    (step : ArpStep sys action next)
    : ServesWaiters sys action next := by
  constructor
  · intro i _ answered pid asleep
    obtain ⟨_, -, -, requested, -⟩ := ok.step step pid i asleep
    exact answered requested
  · intro i evicts pid asleep
    obtain ⟨_, -, -, requested, -⟩ := ok pid i asleep
    cases action with
    | send env caller dst | add env ip mac => exact requested_ne_taken requested evicts.2.2 rfl
    | resume | copy | receive | clock | kill => exact evicts

/-- In every state that a run of the system reaches, whoever sleeps on a slot waits for the
address that the slot is requested for.
-/
theorem arp_waiters_not_stranded (sys : ArpSys) (actions : List ArpAction)
    (awake : ∀ pid i, ¬ sys.kernel.AsleepOn pid (.arp i))
    : Throughout ArpSys.step ArpSys.WaitersOk sys actions
      ∧ Along ArpSys.step
          (fun current action =>
            ∀ next, current.step action = some next → ServesWaiters current action next)
          sys actions := by
  have initially : sys.WaitersOk := fun pid i asleep => absurd asleep (awake pid i)
  have any : Along ArpSys.step (fun _ _ => True) sys actions :=
    Along.of_forall (fun _ _ => trivial) sys
  have kept (current : ArpSys) (action : ArpAction) (next : ArpSys) (ok : current.WaitersOk)
      (_ : True) (taken : current.step action = some next)
      : next.WaitersOk :=
    ok.step (ArpSys.step_move taken)
  refine ⟨any.invariant initially kept, any.strengthen initially kept ?_⟩
  intro current action ok _ next taken
  exact ok.serves (ArpSys.step_move taken)

theorem oneProcess_awake (pid i : Nat) : ¬ oneProcess.kernel.AsleepOn pid (.arp i) := by
  rintro ⟨-, chan⟩
  cases chan

theorem arp_waiters_not_stranded_resolveOnce
    : (exec ArpSys.step oneProcess resolveOnce).isSome = true
      ∧ Throughout ArpSys.step ArpSys.WaitersOk oneProcess resolveOnce
      ∧ Along ArpSys.step
          (fun current action =>
            ∀ next, current.step action = some next → ServesWaiters current action next)
          oneProcess resolveOnce :=
  ⟨by decide +kernel, arp_waiters_not_stranded oneProcess resolveOnce oneProcess_awake⟩

end Xv6Net
