import Xv6Net.Socket.Blocking
import Xv6Net.Socket.PendingRequests

/-! Lost wakeups. `sleepnolock` holds no lock between the test of a condition and the sleep, so
what arrives in between wakes nobody. If nothing that a process waits for arrives while it is
on its way to sleep, no process sleeps on what is there.
-/

namespace Xv6Net

open Library Memory Transition Function Kernel

def Wait.Ready (socket : Socket) (answered : Bool) : Wait → Prop
  | .synAck | .handshakeAck => answered = true
  | .request => isQueueEmpty socket.waitqueue = false
  | .data _ => socket.offset ≠ socket.end_

/-- No process is asleep although what it waits for is there. -/
def NoLostWakeup (current : Sys × (Nat → Bool)) : Prop :=
  ∀ pid w s,
    current.1.pc pid = .wait w s
    → (current.1.kernel.procs pid).state = .sleeping
    → ¬ w.Ready (current.1.kernel.sockets s) (current.2 pid)

section

variable (k : Kernel) (mem : Int → UInt8) (seg size : Int) (srcIp : UInt32) (s : Nat)

/-- A segment of the kind that the process waits for at socket `s`. -/
def Wait.AwaitedBy : Wait → Prop
  | .synAck => Wait.synAck.AnsweredBy k mem seg size srcIp s
  | .handshakeAck => Wait.handshakeAck.AnsweredBy k mem seg size srcIp s
  | .request =>
    Admitted k mem seg size srcIp
    ∧ dstPortOf mem seg = (k.sockets s).port
    ∧ flagsOf mem seg &&& tcpFlagSyn ≠ 0
  | .data _ =>
    FromPeer k mem seg size srcIp s
    ∧ flagsOf mem seg &&& tcpFlagAck = 0

/-- The segment makes what the process waits for at socket `s` be there. -/
def Wait.DeliveredBy : Wait → Prop
  | .synAck => Wait.synAck.AnsweredBy k mem seg size srcIp s
  | .handshakeAck => Wait.handshakeAck.AnsweredBy k mem seg size srcIp s
  | .request => disposition k mem seg size srcIp = .request s
  | .data _ => disposition k mem seg size srcIp = .inOrder s

end

/-- No segment that a process waits for arrives between its decision to sleep and the end of
the locked section of `sleepnolock`.
-/
def Timely (sys : Sys) : SysAction → Prop
  | .receive env seg size srcIp =>
    ∀ pid w s,
      (sys.pc pid = .mark w s ∨ sys.pc pid = .sleep w s)
      → ¬ w.AwaitedBy sys.kernel env.frame seg size srcIp s
  | _ => True

variable {k k' : Kernel} {mem : Int → UInt8} {seg size : Int} {srcIp : UInt32} {s : Nat}

variable {w : Wait} {pid : Nat} {p : Proc} {current : Sys × (Nat → Bool)} {env : Env}

theorem Wait.DeliveredBy.awaited (delivered : w.DeliveredBy k mem seg size srcIp s)
    (tables : TableInv k) (inside : s < nSockets)
    : w.AwaitedBy k mem seg size srcIp s := by
  have justified := disposition_justified k mem seg size srcIp
  cases w with
  | synAck | handshakeAck => exact delivered
  | request =>
    have taken : disposition k mem seg size srcIp = .request s := delivered
    rw [taken] at justified
    exact ⟨admitted_of_disposition (by simp [taken]),
      tables.port_of_registered inside (Or.inr justified.1), justified.2.2.1⟩
  | data =>
    have taken : disposition k mem seg size srcIp = .inOrder s := delivered
    rw [taken] at justified
    obtain ⟨active, dstAddr, dstPort, established, data, inOrder⟩ := justified
    exact ⟨⟨admitted_of_disposition (by simp [taken]),
      tables.port_of_registered inside (Or.inl active), dstAddr, dstPort⟩, data⟩

theorem disposition_synAck (connecting : Connecting k s)
    (sent : (k.sockets s).tcon.state = .synSent) (peer : FromPeer k mem seg size srcIp s)
    (acknowledges : flagsOf mem seg &&& tcpFlagAck ≠ 0)
    : disposition k mem seg size srcIp = .synReply s := by
  have known : ¬ ((k.sockets s).tcon.dstAddr ≠ srcIp
      ∨ (k.sockets s).tcon.dstPort ≠ srcPortOf mem seg) := by
    simp [peer.dstAddr, peer.dstPort]
  simp only [disposition, if_pos peer.admitted, peer.port, connecting.active, connecting.alone,
    activeDisposition, if_neg known]
  rw [if_pos ⟨sent, acknowledges⟩]

theorem disposition_handshakeAck (accepting : Accepting k s)
    (sent : (k.sockets s).tcon.state = .synackSent) (peer : FromPeer k mem seg size srcIp s)
    (acknowledges : flagsOf mem seg &&& tcpFlagAck ≠ 0)
    : disposition k mem seg size srcIp = .handshakeAck s := by
  have known : ¬ ((k.sockets s).tcon.dstAddr ≠ srcIp
      ∨ (k.sockets s).tcon.dstPort ≠ srcPortOf mem seg) := by
    simp [peer.dstAddr, peer.dstPort]
  have busy : ¬ ((k.sockets s).tcon.state = .listen ∧ flagsOf mem seg &&& tcpFlagSyn ≠ 0
      ∧ isQueueFull (k.sockets s).waitqueue = false) := by
    simp [sent]
  simp only [disposition, if_pos peer.admitted, peer.port, accepting.passive,
    passiveDisposition, if_neg busy, if_neg known]
  rw [if_pos ⟨sent, acknowledges⟩]

/-- What is delivered to a process that has marked its socket makes `tcp_receive` call
`wakeup`.
-/
theorem Wait.DeliveredBy.wakes (delivered : w.DeliveredBy k mem seg size srcIp s)
    (owns : w.Owns k s) (marked : w.Marked (k.sockets s))
    : (disposition k mem seg size srcIp).Wakes k := by
  cases w with
  | synAck =>
    obtain ⟨peer, -, acknowledges, -⟩ := delivered
    rw [disposition_synAck owns marked peer acknowledges]
    trivial
  | handshakeAck =>
    obtain ⟨peer, acknowledges, -⟩ := delivered
    rw [disposition_handshakeAck owns marked peer acknowledges]
    trivial
  | request =>
    rw [show disposition k mem seg size srcIp = .request s from delivered]
    exact marked
  | data =>
    rw [show disposition k mem seg size srcIp = .inOrder s from delivered]
    exact marked

theorem Wait.AwaitedBy.port (awaited : w.AwaitedBy k mem seg size srcIp s)
    : dstPortOf mem seg = (k.sockets s).port := by
  cases w with
  | synAck | handshakeAck | data bytes => exact awaited.1.port
  | request => exact awaited.2.1

theorem not_delivered_of_asleep (tables : TableInv k)
    (located : Located k (k.procs pid) (.wait w s))
    (asleep : ((k.receive mem seg size srcIp).procs pid).state = .sleeping)
    : ¬ w.DeliveredBy k mem seg size srcIp s := by
  intro delivered
  have inside := (located.busy tables rfl).1
  obtain ⟨owns, marked, chan⟩ := located
  rcases receive_procs k mem seg size srcIp with ⟨-, woken⟩ | ⟨silent, -⟩
  · have port := (delivered.awaited tables inside).port
    have slept := (receive_kept k mem seg size srcIp pid asleep).1
    rw [woken, port] at asleep
    simp [Kernel.wakeup, slept, chan slept] at asleep
  · exact silent (delivered.wakes owns marked)

theorem Wait.Ready.of_receive {answered : Bool}
    (ready
      : w.Ready ((k.receive mem seg size srcIp).sockets s)
          (answered || decide (w.AnsweredBy k mem seg size srcIp s)))
    (silent : ¬ w.DeliveredBy k mem seg size srcIp s)
    : w.Ready (k.sockets s) answered := by
  cases w with
  | synAck => simpa [Wait.Ready, show ¬ Wait.synAck.AnsweredBy .. from silent] using ready
  | handshakeAck =>
    simpa [Wait.Ready, show ¬ Wait.handshakeAck.AnsweredBy .. from silent] using ready
  | request =>
    simp only [Wait.Ready, receive_sockets] at ready ⊢
    split at ready
    · rename_i target
      cases taken : disposition k mem seg size srcIp with
      | request =>
        rw [taken] at target
        cases target
        exact absurd taken silent
      | _ => simpa [taken, Disposition.onSocket] using ready
    · exact ready
  | data =>
    simp only [Wait.Ready, receive_sockets] at ready ⊢
    split at ready
    · rename_i target
      cases taken : disposition k mem seg size srcIp with
      | inOrder =>
        rw [taken] at target
        cases target
        exact absurd taken silent
      | _ => simpa [taken, Disposition.onSocket] using ready
    · exact ready

/-- What a process that is on its way to sleep or asleep waits for. -/
def Pc.dozing (p : Proc) : Pc → Option (Wait × Nat)
  | .mark w s | .sleep w s => some (w, s)
  | .wait w s => if p.state = .sleeping then some (w, s) else none
  | _ => none

/-- The process is neither on its way to sleep nor asleep on what is there. -/
def Unready (p : Proc) (pc : Pc) (socket : Socket) (answered : Bool) : Prop :=
  ∀ w s, pc.dozing p = some (w, s) → ¬ w.Ready socket answered

/-- No process is on its way to sleep or asleep although what it waits for is there. -/
structure WakeupInv (current : Sys × (Nat → Bool)) : Prop where
  calls : CallsInv current.1
  unready : Personally Unready current

variable {pc : Pc}

theorem Pc.awaits_of_dozing (dozes : pc.dozing p = some (w, s))
    : pc.awaits = some (w, s) := by
  cases pc with
  | wait =>
    simp only [Pc.dozing] at dozes
    split at dozes
    · exact dozes
    · cases dozes
  | _ => exact dozes

theorem Pc.dozing_socket (dozes : pc.dozing p = some (w, s))
    : pc.socket = some s := by
  have awaits := Pc.awaits_of_dozing dozes
  cases pc with
  | mark w' s' | sleep w' s' | wait w' s' =>
    cases awaits
    rfl
  | _ => cases awaits

theorem WakeupInv.not_ready (inv : WakeupInv current)
    (dozes : (current.1.pc pid).dozing (current.1.kernel.procs pid) = some (w, s))
    : ¬ w.Ready (current.1.kernel.sockets s) (current.2 pid) :=
  inv.unready pid s (Pc.dozing_socket dozes) w s dozes

theorem Pc.not_dozing (free : pc.awaits = none)
    : pc.dozing p ≠ some (w, s) := by
  intro dozes
  rw [Pc.awaits_of_dozing dozes] at free
  cases free

theorem WakeupInv.call {c : Call} {next : Next} (inv : WakeupInv current)
    (orderly : Orderly current.1 (.call pid c env))
    (move : CallMove env current.1.kernel pid c next k')
    : WakeupInv (current.1.after pid k' next, current.2) := by
  refine ⟨inv.calls.call orderly move, inv.unready.call inv.calls orderly move ?_⟩
  intro t free uses w s dozes
  exact absurd dozes (Pc.not_dozing free)

/-- Sleeping starts with the condition tested, or with a SYN or SYN-ACK that nobody can have
answered yet.
-/
theorem WakeupInv.resume {next : Next} {log : List Event} (inv : WakeupInv current)
    (move : PcMove env current.1.kernel pid (current.1.pc pid) next k' log)
    : WakeupInv
        (current.1.after pid k' next, noteAnswers current.1 (.resume pid env) current.2) := by
  refine ⟨inv.calls.resume move, inv.unready.resume inv.calls move ?_⟩
  intro t uses w s dozes
  obtain rfl : t = s := Option.some.inj (uses.symm.trans (Pc.dozing_socket dozes))
  have before (v : Wait)
      (dozed : (current.1.pc pid).dozing (current.1.kernel.procs pid) = some (v, t))
      : ¬ v.Ready (current.1.kernel.sockets t) (current.2 pid) :=
    inv.not_ready dozed
  generalize here : current.1.pc pid = pc at move before
  cases move with
  | connectSyn s dstAddr dstPort | takeRequest s =>
    cases dozes
    simp [Wait.Ready, noteAnswers, here]
  | noRequest s empty =>
    cases dozes
    simp [Wait.Ready, empty]
  | noData s size empty =>
    cases dozes
    simpa [Wait.Ready] using empty
  | mark =>
    cases dozes
    have unready := before w rfl
    cases w <;> simpa [Wait.Ready, Wait.mark, noteAnswers, here] using unready
  | sleep w' =>
    simp [Next.pc, Pc.dozing, fallAsleep] at dozes
    obtain ⟨rfl, rfl⟩ := dozes
    have unready := before w' rfl
    simpa [fallAsleep, noteAnswers, here] using unready
  | write => exact (here ▸ inv.calls.located pid).elim
  | _ => cases dozes

theorem Pc.dozing_of_kept {p' : Proc} (still : Proc.Kept p p') (dozes : pc.dozing p' = some (w, s))
    : pc.dozing p = some (w, s) := by
  cases pc with
  | wait =>
    simp only [Pc.dozing] at dozes ⊢
    split at dozes
    · rename_i asleep
      rwa [if_pos (still asleep).1]
    · cases dozes
  | _ => exact dozes

theorem WakeupInv.receive (inv : WakeupInv current)
    (timely : Timely current.1 (.receive env seg size srcIp))
    : WakeupInv
        ({ current.1 with kernel := current.1.kernel.receive env.frame seg size srcIp },
          noteAnswers current.1 (.receive env seg size srcIp) current.2) := by
  refine ⟨inv.calls.receive env seg size srcIp, fun pid t uses w s dozes ready => ?_⟩
  obtain rfl : t = s := Option.some.inj (uses.symm.trans (Pc.dozing_socket dozes))
  simp only at dozes ready
  have before := Pc.dozing_of_kept (receive_kept current.1.kernel env.frame seg size srcIp pid)
    dozes
  have located := inv.calls.located pid
  have inside := (located.busy inv.calls.tables (Pc.dozing_socket before)).1
  -- a process on its way is not given what it waits for, and one asleep would have been woken
  have silent : ¬ w.DeliveredBy current.1.kernel env.frame seg size srcIp t := by
    cases here : current.1.pc pid with
    | mark =>
      rw [here] at before
      cases before
      intro delivered
      exact timely pid w t (Or.inl here) (delivered.awaited inv.calls.tables inside)
    | sleep =>
      rw [here] at before
      cases before
      intro delivered
      exact timely pid w t (Or.inr here) (delivered.awaited inv.calls.tables inside)
    | wait =>
      rw [here] at dozes located
      simp only [Pc.dozing] at dozes
      split at dozes
      · rename_i asleep
        cases dozes
        exact not_delivered_of_asleep inv.calls.tables located asleep
      · cases dozes
    | _ =>
      rw [here] at before
      cases before
  have awaits : (current.1.pc pid).awaits = some (w, t) := Pc.awaits_of_dozing before
  refine inv.not_ready before (Wait.Ready.of_receive ?_ silent)
  simpa only [noteAnswers, awaits] using ready

theorem WakeupInv.noLostWakeup (inv : WakeupInv current)
    : NoLostWakeup current := by
  intro pid w s here asleep
  refine inv.not_ready ?_
  rw [here, Pc.dozing, if_pos asleep]

theorem WakeupInv.step {next : Sys × (Nat → Bool)} {action : SysAction} (inv : WakeupInv current)
    (orderly : Orderly current.1 action) (timely : Timely current.1 action)
    (taken : stepAnswering current action = some next)
    : WakeupInv next := by
  obtain ⟨stepped, noted⟩ := withHistory_eq_some taken
  obtain ⟨log, -, move⟩ := Sys.step_move inv.calls.tables.tidy stepped
  obtain ⟨sys, answered⟩ := next
  simp only at noted move
  subst noted
  cases move with
  | call pid c env next k' idle runnable move => exact inv.call orderly move
  | resume pid env pc next k' log located runnable move =>
    subst located
    exact inv.resume move
  | kill => exact orderly.elim
  | receive => exact inv.receive timely

/-- In every orderly run in which no segment arrives while a process that waits for it is on
its way to sleep, no process sleeps on what is there. Witness: the condition is tested before
the process sets out to sleep, and what arrives later finds it asleep and its socket marked.
-/
theorem no_lost_wakeup {current : Sys × (Nat → Bool)} (quiet : Quiet current)
    {run : List SysAction}
    (timely
      : Along stepAnswering (fun now action => Orderly now.1 action ∧ Timely now.1 action)
          current run)
    : Throughout stepAnswering NoLostWakeup current run := by
  have initially : WakeupInv current := ⟨quiet.callsInv, quiet.personally⟩
  have invariant := timely.invariant initially
    fun now action next inv proper taken => inv.step proper.1 proper.2 taken
  exact invariant.mono fun now inv => inv.noLostWakeup

set_option maxRecDepth 20000

/-- A host whose first process has opened one socket after boot. -/
def openedHost : Sys × (Nat → Bool) :=
  let sys := Sys.boot 0xc0a80202 0xffffff00 0xc0a80201
  ({ sys with kernel := sys.kernel.openSocket 0 0 0 0 blankEnv.kalloc }, fun _ => false)

/-- The process connects to port 80 of 192.168.2.3, and has sent its SYN. -/
def connectSent : List SysAction :=
  [.call 0 (.connect 0 0xc0a80203 80) blankEnv, .resume 0 blankEnv]

def synAckArrives : SysAction :=
  .receive
    { blankEnv with
      frame := tcpPack (fun _ => 0) 0xc0a80203 80 1024 0xc0a80202 initialSeq 1
        (tcpFlagSyn ||| tcpFlagAck) 24 tcpMssOption }
    0 28 0xc0a80203

/-- The process sets SYN_SENT and goes to sleep. -/
def fallsAsleep : List SysAction :=
  [.resume 0 blankEnv, .resume 0 blankEnv]

/-- The SYN-ACK is received before `connect` has gone to sleep, and `connect` sleeps on. -/
theorem synAck_before_sleep_lost
    : ¬ Throughout stepAnswering NoLostWakeup openedHost
        (connectSent ++ synAckArrives :: fallsAsleep) := by
  intro ok
  obtain ⟨final, run, located, asleep, answered⟩
      : ∃ final,
          exec stepAnswering openedHost (connectSent ++ synAckArrives :: fallsAsleep)
            = some final
          ∧ final.1.pc 0 = .wait .synAck 0
          ∧ (final.1.kernel.procs 0).state = .sleeping
          ∧ final.2 0 = true :=
    ⟨_, rfl, rfl, rfl, by decide +kernel⟩
  exact ok.finish run 0 .synAck 0 located asleep answered

theorem openedHost_quiet : Quiet openedHost := by
  have closed (s : Nat) : (openedHost.1.kernel.sockets s).tcon.state = .closed := by
    by_cases same : s = 0
    · subst same
      rfl
    · simp only [openedHost, openSocket, setProc_sockets, setFile_sockets,
        setSocket_sockets, update_of_ne same]
      rfl
  refine ⟨⟨?_, fun p vacant => ⟨rfl, rfl⟩, ?_, fun s _ => closed s, ?_, ?_⟩, fun pid => rfl⟩
  · exact openSocket_tidy (boot_tidy 0xc0a80202 0xffffff00 0xc0a80201) 0 0 0 0 blankEnv.kalloc
  · intro p s registered
    rcases registered with impossible | impossible <;> cases impossible
  · intro s inside listening
    rw [closed] at listening
    cases listening
  · intro f s type refers
    by_cases same : f = 0
    · subst same
      cases refers
      decide
    · simp only [openedHost, openSocket, setProc_files, setFile_files, update_of_ne same] at refers
      cases refers

/-- The SYN-ACK that comes when `connect` is asleep. -/
theorem no_lost_wakeup_connect
    : Throughout stepAnswering NoLostWakeup openedHost
        (connectSent ++ fallsAsleep ++ [synAckArrives]) := by
  refine no_lost_wakeup openedHost_quiet ?_
  refine ⟨⟨fun s named => ?_, trivial⟩, fun one taken => ?_⟩
  · cases (Option.some.inj named : 0 = s)
    rfl
  obtain rfl := Option.some.inj taken
  refine ⟨⟨trivial, trivial⟩, fun two taken => ?_⟩
  obtain rfl := Option.some.inj taken
  refine ⟨⟨trivial, trivial⟩, fun three taken => ?_⟩
  obtain rfl := Option.some.inj taken
  refine ⟨⟨trivial, trivial⟩, fun four taken => ?_⟩
  obtain rfl := Option.some.inj taken
  refine ⟨⟨trivial, fun pid w s here => ?_⟩, fun five _ => trivial⟩
  by_cases same : pid = 0
  · subst same
    rcases here with here | here <;> cases here
  · simp only [Sys.after_pc, update_of_ne same] at here
    rcases here with here | here <;> cases here

end Xv6Net
