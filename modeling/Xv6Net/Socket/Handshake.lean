import Xv6Net.Socket.Wakeup
import Xv6Net.Tcp.ReceiveBuffer

/-! The handshake of `connect` and `accept`. `tcp_receive` wakes `connect` for any segment with
ACK set, and `accept` for any ACK number; the numbers of the connection are copied from that
segment. With a peer that sends only the segments the handshake calls for, every connection
starts from the numbers that its own SYN or SYN-ACK established.
-/

namespace Xv6Net

open Library Memory Transition Function Kernel

/-- `connect` and `accept` return with a connection only after the answer to their SYN or
SYN-ACK, and a connection that becomes established starts with the numbers of this side.
-/
structure HandshakeOk (current : Sys × (Nat → Bool)) (action : SysAction) : Prop where
  connect
    : ∀ pid env s next,
        action = .resume pid env
        → current.1.pc pid = .wait .synAck s
        → stepAnswering current action = some next
        → next.1.returned pid = 0
        → current.2 pid = true
  accept
    : ∀ pid env s next,
        action = .resume pid env
        → current.1.pc pid = .wait .handshakeAck s
        → stepAnswering current action = some next
        → 0 ≤ next.1.returned pid
        → current.2 pid = true
  established
    : ∀ next t,
        stepAnswering current action = some next
        → (current.1.kernel.sockets t).tcon.state ≠ .established
        → (next.1.kernel.sockets t).tcon.state = .established
        → (next.1.kernel.sockets t).tcon.baseSeq = initialSeq + 1
          ∧ (next.1.kernel.sockets t).tcon.nextSeq = initialSeq + 1

/-- A copy to a receive page stays inside it. -/
def Event.StaysInPage : Event → Prop
  | .bufferCopy _ start count => InPage start count
  | _ => True

instance (event : Event) : Decidable event.StaysInPage := by
  unfold Event.StaysInPage InPage
  split <;> infer_instance

/-- A segment with ACK set that a peer sends to a socket in the handshake is the one that the
handshake calls for: whole, with the right ACK number, and with SYN set where it answers a SYN. No
segment is copied beyond a receive page, into what may be the page of another socket.
-/
def Conforming (sys : Sys) : SysAction → Prop
  | .receive env seg size srcIp =>
    (∀ s,
      FromPeer sys.kernel env.frame seg size srcIp s
      → flagsOf env.frame seg &&& tcpFlagAck ≠ 0
      → ((sys.kernel.sockets s).tcon.state = .synSent
          → Wait.synAck.AnsweredBy sys.kernel env.frame seg size srcIp s
            ∧ tcpHeaderMinSize ≤ moveCount size)
        ∧ ((sys.kernel.sockets s).tcon.state = .synackSent
          → Wait.handshakeAck.AnsweredBy sys.kernel env.frame seg size srcIp s))
    ∧ ∀ event ∈ ((tcpReceive seg size srcIp).run env sys.kernel).log, event.StaysInPage
  | _ => True

variable {k k' : Kernel} {mem : Int → UInt8} {seg size : Int} {srcIp : UInt32} {s : Nat}

/-- The answer has been received, and its ACK number is the one that the call will use. -/
def Wait.Completed (socket : Socket) (answered : Bool) : Wait → Prop
  | .synAck => answered = true ∧ ackNumOf socket.buffer 0 = initialSeq + 1
  | .handshakeAck => answered = true ∧ socket.tcon.ackReceived = initialSeq + 1
  | .request | .data _ => True

/-- A process that has been woken in `connect` or `accept` finds the answer. -/
def Answered (p : Proc) (pc : Pc) (socket : Socket) (answered : Bool) : Prop :=
  ∀ w s, pc = .wait w s → p.state ≠ .sleeping → w.Completed socket answered

structure HandshakeInv (current : Sys × (Nat → Bool)) : Prop where
  calls : CallsInv current.1
  answered : Personally Answered current

/-- The connection state in which a socket takes a segment so. -/
def Disposition.tcpState : Disposition → TcpState
  | .request _ => .listen
  | .handshakeAck _ => .synackSent
  | .synReply _ => .synSent
  | .dropped | .ack _ | .inOrder _ | .outOfOrder _ => .established

/-- A segment concerns a socket that is registered at its port and in the right state. -/
theorem disposition_target (target : (disposition k mem seg size srcIp).target = some s)
    : k.Registered (dstPortOf mem seg).toNat s
      ∧ (k.sockets s).tcon.state = (disposition k mem seg size srcIp).tcpState := by
  have justified := disposition_justified k mem seg size srcIp
  generalize disposition k mem seg size srcIp = taken at target justified
  cases taken with
  | dropped => cases target
  | request psoc | handshakeAck psoc =>
    cases target
    exact ⟨Or.inr justified.1, justified.2.1⟩
  | synReply asoc | ack asoc | inOrder asoc | outOfOrder asoc =>
    cases target
    exact ⟨Or.inl justified.1, justified.2.2.2.1⟩

theorem Disposition.Wakes.target {taken : Disposition} (wakes : taken.Wakes k)
    : ∃ t, taken.target = some t := by
  cases taken with
  | dropped => exact wakes.elim
  | _ => exact ⟨_, rfl⟩

theorem disposition_of_synSent (sent : (k.sockets s).tcon.state = .synSent)
    (target : (disposition k mem seg size srcIp).target = some s)
    : disposition k mem seg size srcIp = .synReply s := by
  have state := (disposition_target target).2
  rw [sent] at state
  generalize disposition k mem seg size srcIp = taken at target state
  cases taken with
  | synReply =>
    cases target
    rfl
  | _ => cases state

theorem disposition_of_synackSent (sent : (k.sockets s).tcon.state = .synackSent)
    (target : (disposition k mem seg size srcIp).target = some s)
    : disposition k mem seg size srcIp = .handshakeAck s := by
  have state := (disposition_target target).2
  rw [sent] at state
  generalize disposition k mem seg size srcIp = taken at target state
  cases taken with
  | handshakeAck =>
    cases target
    rfl
  | _ => cases state

variable {t pid : Nat} {current : Sys × (Nat → Bool)} {action : SysAction}

theorem Connecting.unique (connecting : Connecting k s)
    (registered : k.Registered (k.sockets s).port.toNat t)
    : t = s := by
  rcases registered with active | passive
  · rw [connecting.active] at active
    cases active
    rfl
  · rw [connecting.alone] at passive
    cases passive

variable {w : Wait} {env : Env} {log : List Event}

theorem target_of_woken (located : Located k (k.procs pid) (.wait w s))
    (handshake : w = .synAck ∨ w = .handshakeAck) (asleep : (k.procs pid).state = .sleeping)
    (awake : ((k.receive mem seg size srcIp).procs pid).state ≠ .sleeping)
    : (disposition k mem seg size srcIp).target = some s := by
  obtain ⟨owns, -, chan⟩ := located
  rcases receive_procs k mem seg size srcIp with ⟨wakes, woken⟩ | ⟨-, same⟩
  · rw [woken] at awake
    simp only [Kernel.wakeup, chan asleep, asleep] at awake
    split at awake
    · rename_i here
      obtain ⟨t, target⟩ := wakes.target
      have port : (k.sockets s).port.toNat = (dstPortOf mem seg).toNat := by
        simpa using here.2
      have registered := (disposition_target target).1
      rw [← port] at registered
      have unique : t = s := by
        rcases handshake with rfl | rfl
        · exact Connecting.unique owns registered
        · exact Accepting.unique owns registered
      rw [target, unique]
    · exact absurd asleep awake
  · rw [same] at awake
    exact absurd asleep awake

theorem fromPeer_of_target (tables : TableInv k) (inside : s < nSockets)
    (taken
      : disposition k mem seg size srcIp = .synReply s
        ∨ disposition k mem seg size srcIp = .handshakeAck s)
    : FromPeer k mem seg size srcIp s ∧ flagsOf mem seg &&& tcpFlagAck ≠ 0 := by
  have justified := disposition_justified k mem seg size srcIp
  have admitted : Admitted k mem seg size srcIp := by
    refine admitted_of_disposition fun dropped => ?_
    simp [dropped] at taken
  rcases taken with taken | taken
  · rw [taken] at justified
    obtain ⟨active, dstAddr, dstPort, -, acknowledges⟩ := justified
    exact ⟨⟨admitted, tables.port_of_registered inside (Or.inl active), dstAddr, dstPort⟩,
      acknowledges⟩
  · rw [taken] at justified
    obtain ⟨passive, -, acknowledges, dstAddr, dstPort⟩ := justified
    exact ⟨⟨admitted, tables.port_of_registered inside (Or.inr passive), dstAddr, dstPort⟩,
      acknowledges⟩

theorem Answered.receive (inv : HandshakeInv current)
    (conforming : Conforming current.1 (.receive env seg size srcIp))
    : Personally Answered
        ({ current.1 with kernel := current.1.kernel.receive env.frame seg size srcIp },
          noteAnswers current.1 (.receive env seg size srcIp) current.2) := by
  intro pid s uses w t here awake
  simp only at uses here awake ⊢
  rw [here] at uses
  cases uses
  have located := inv.calls.located pid
  rw [here] at located
  have inside := (located.busy inv.calls.tables rfl).1
  have marked := located.2.1
  -- a segment for another socket neither changes this one nor wakes the process
  have other (handshake : w = .synAck ∨ w = .handshakeAck)
      (elsewhere : (disposition current.1.kernel env.frame seg size srcIp).target ≠ some s)
      : w.Completed ((current.1.kernel.receive env.frame seg size srcIp).sockets s)
          (current.2 pid) := by
    have before : (current.1.kernel.procs pid).state ≠ .sleeping := fun asleep =>
      elsewhere (target_of_woken located handshake asleep awake)
    rw [receive_sockets, if_neg elsewhere]
    exact inv.answered pid s (by rw [here]; rfl) w s here before
  simp only [noteAnswers, here, Pc.awaits]
  cases w with
  | request | data bytes => trivial
  | synAck =>
    by_cases target : (disposition current.1.kernel env.frame seg size srcIp).target = some s
    · have taken := disposition_of_synSent marked target
      obtain ⟨peer, acknowledges⟩ :=
        fromPeer_of_target inv.calls.tables inside (Or.inl taken)
      obtain ⟨answer, long⟩ := (conforming.1 s peer acknowledges).1 marked
      refine ⟨by simp [answer], ?_⟩
      have copied := slice_overlay (current.1.kernel.sockets s).buffer 0
        (slice env.frame seg (moveCount size))
      rw [length_slice] at copied
      rw [receive_sockets, if_pos target, taken]
      exact (header_congr copied long).2.2.2.1.trans answer.2.2.2
    · obtain ⟨answered, number⟩ := other (Or.inl rfl) target
      exact ⟨by simp [answered], number⟩
  | handshakeAck =>
    by_cases target : (disposition current.1.kernel env.frame seg size srcIp).target = some s
    · have taken := disposition_of_synackSent marked target
      obtain ⟨peer, acknowledges⟩ :=
        fromPeer_of_target inv.calls.tables inside (Or.inr taken)
      have answer := (conforming.1 s peer acknowledges).2 marked
      refine ⟨by simp [answer], ?_⟩
      rw [receive_sockets, if_pos target, taken]
      exact answer.2.2
    · obtain ⟨answered, number⟩ := other (Or.inr rfl) target
      exact ⟨by simp [answered], number⟩

theorem HandshakeInv.step {next : Sys × (Nat → Bool)} (inv : HandshakeInv current)
    (orderly : Orderly current.1 action) (conforming : Conforming current.1 action)
    (taken : stepAnswering current action = some next)
    : HandshakeInv next := by
  obtain ⟨stepped, noted⟩ := withHistory_eq_some taken
  obtain ⟨log, -, move⟩ := Sys.step_move inv.calls.tables.tidy stepped
  obtain ⟨sys, answered⟩ := next
  simp only at noted move
  subst noted
  refine ⟨inv.calls.step orderly move, ?_⟩
  cases move with
  | call pid c env next k' idle runnable move =>
    refine inv.answered.call inv.calls orderly move fun s free uses w t here => ?_
    rw [here] at free
    cases free
  | resume pid env pc next k' log located runnable move =>
    subst located
    refine inv.answered.resume inv.calls move fun s uses w t here awake => ?_
    have located := inv.calls.located pid
    generalize current.1.pc pid = pc at move located
    cases move with
    | sleep => simp [fallAsleep] at awake
    | write => exact located.elim
    | _ => cases here
  | kill => exact orderly.elim
  | receive => exact .receive inv conforming

/-- A connection is established only by the last step of `connect` or `accept`, with the numbers of
the answer.
-/
theorem PcMove.established {pc : Pc} {next : Next}
    (move : PcMove env k pid pc next k' log) (before : (k.sockets t).tcon.state ≠ .established)
    (after : (k'.sockets t).tcon.state = .established)
    : (pc = .wait .synAck t
        ∧ (k'.sockets t).tcon.baseSeq = ackNumOf (k.sockets t).buffer 0
        ∧ (k'.sockets t).tcon.nextSeq = ackNumOf (k.sockets t).buffer 0)
      ∨ ∃ s,
          pc = .wait .handshakeAck s
          ∧ (k'.sockets t).tcon.baseSeq = (k.sockets s).tcon.ackReceived
          ∧ (k'.sockets t).tcon.nextSeq = (k.sockets s).tcon.ackReceived := by
  have unchanged (same : (k'.sockets t).tcon.state = (k.sockets t).tcon.state) : False :=
    before (same.symm.trans after)
  by_cases tables : pc.ChangesTables
  · cases move with
    | bindUpdate =>
      refine (unchanged ?_).elim
      simp only [bindPort, setSocket_sockets, update_apply]
      split
      · rename_i same
        rw [same]
        rfl
      · rfl
    | accepted s new =>
      by_cases same : t = new
      · refine Or.inr ⟨s, rfl, ?_⟩
        subst same
        by_cases self : s = t
        · subst self
          simp [handOver, openSocket, setTcpState, wake, setTcon_sockets]
        · simp [handOver, openSocket, setTcpState, wake, setTcon_sockets, update_of_ne self]
      · by_cases self : t = s
        · subst self
          simp [handOver, openSocket, setTcpState, wake,
            setTcon_sockets, update_of_ne same] at after
        · refine (unchanged ?_).elim
          simp [handOver, openSocket, setTcpState, wake,
            setTcon_sockets, update_of_ne self, update_of_ne same]
    -- without a free socket the connection goes to the slot behind the last one
    | acceptFailed s =>
      by_cases same : t = nSockets
      · refine Or.inr ⟨s, rfl, ?_⟩
        subst same
        simp [handOver, setTcpState, wake, setTcon_sockets]
      · by_cases self : t = s
        · subst self
          simp [handOver, setTcpState, wake, setTcon_sockets, update_of_ne same] at after
        · refine (unchanged ?_).elim
          simp [handOver, setTcpState, wake, setTcon_sockets, update_of_ne self, update_of_ne same]
    | _ => exact tables.elim
  · cases used : pc.socket with
    | none => cases move <;> cases used
    | some s =>
      obtain ⟨own, -, state⟩ := move.own used tables
      by_cases same : t = s
      · subst same
        rw [state] at after
        obtain ⟨r, rfl⟩ := Pc.nextTcpState_established after before
        cases used
        cases move
        exact Or.inl ⟨rfl, by simp [Kernel.connected, readReply, setTcon_sockets, wake]⟩
      · exact (unchanged (by rw [own.others same])).elim

/-- A process that takes a step in `connect` or `accept` after its sleep has its answer. -/
theorem HandshakeInv.completed (inv : HandshakeInv current)
    (here : current.1.pc pid = .wait w s) (runnable : current.1.Runnable pid)
    : w.Completed (current.1.kernel.sockets s) (current.2 pid) := by
  refine inv.answered pid s (by rw [here]; rfl) w s here ?_
  rw [runnable.2]
  decide

theorem HandshakeInv.established {after : Sys} (inv : HandshakeInv current)
    (orderly : Orderly current.1 action) (move : SysMove current.1 action after log)
    (before : (current.1.kernel.sockets t).tcon.state ≠ .established)
    (established : (after.kernel.sockets t).tcon.state = .established)
    : (after.kernel.sockets t).tcon.baseSeq = initialSeq + 1
      ∧ (after.kernel.sockets t).tcon.nextSeq = initialSeq + 1 := by
  cases move with
  | call pid c env next k' idle runnable move =>
    rw [Sys.after_kernel] at established
    refine absurd ?_ before
    cases move with
    | connect sockfd dstAddr dstPort s =>
      by_cases same : t = s
      · subst same
        simpa [takePort] using established
      · simpa [takePort, update_of_ne same] using established
    | refused c | accept sockfd s named listening alone | read fd size s named connected =>
      exact established
    | _ => exact orderly.elim
  | resume pid env pc next k' log here runnable move =>
    rw [Sys.after_kernel] at established ⊢
    rcases move.established before established with ⟨rfl, base, next⟩ | ⟨s, rfl, base, next⟩
    · rw [base, next]
      exact ⟨(inv.completed here runnable).2, (inv.completed here runnable).2⟩
    · rw [base, next]
      exact ⟨(inv.completed here runnable).2, (inv.completed here runnable).2⟩
  | kill => exact orderly.elim
  | receive env seg size srcIp =>
    rw [(receive_role current.1.kernel env.frame seg size srcIp t).tcpState] at established
    exact absurd established before

theorem HandshakeInv.handshakeOk (inv : HandshakeInv current) (orderly : Orderly current.1 action)
    : HandshakeOk current action := by
  have runnable {pid : Nat} {env : Env} {next : Sys × (Nat → Bool)}
      (taken : stepAnswering current (.resume pid env) = some next)
      : current.1.Runnable pid := by
    obtain ⟨log, -, move⟩ :=
      Sys.step_move inv.calls.tables.tidy (withHistory_eq_some taken).1
    generalize next.1 = after at move
    cases move with
    | resume _ _ _ _ _ _ _ runnable => exact runnable
  refine ⟨?_, ?_, ?_⟩
  · rintro pid env s next rfl here taken -
    exact (inv.completed here (runnable taken)).1
  · rintro pid env s next rfl here taken -
    exact (inv.completed here (runnable taken)).1
  · intro next t taken before established
    obtain ⟨log, -, move⟩ :=
      Sys.step_move inv.calls.tables.tidy (withHistory_eq_some taken).1
    exact inv.established orderly move before established

/-- In every orderly run with conforming peers, a handshake completes only after its answer,
and leaves the connection with the numbers of this side. Witness: a process in the handshake is
woken by nothing but a segment for its own socket, and that one conforms.
-/
theorem handshake_valid {current : Sys × (Nat → Bool)} (quiet : Quiet current)
    {run : List SysAction}
    (conforming
      : Along stepAnswering (fun now action => Orderly now.1 action ∧ Conforming now.1 action)
          current run)
    : Along stepAnswering HandshakeOk current run := by
  have initially : HandshakeInv current := ⟨quiet.callsInv, quiet.personally⟩
  refine conforming.strengthen initially ?_ ?_
  · intro now action next inv proper taken
    exact inv.step proper.1 proper.2 taken
  · intro now action inv proper
    exact inv.handshakeOk proper.1

set_option maxRecDepth 20000

/-- The peer sends a segment with ACK set, but not SYN, and a number that acknowledges
nothing.
-/
def strayAck : SysAction :=
  .receive
    { blankEnv with
      frame := tcpPack (fun _ => 0) 0xc0a80203 80 1024 0xc0a80202 5 77 tcpFlagAck 20 [] }
    0 20 0xc0a80203

/-- `connect` returns 0 after an ACK that answers no SYN, and its connection starts with the
number of that ACK.
-/
theorem strayAck_completes_connect
    : ¬ Along stepAnswering HandshakeOk openedHost
        (connectSent ++ fallsAsleep ++ [strayAck] ++ [.resume 0 blankEnv]) := by
  intro ok
  obtain ⟨current, run, next, taken, here, returned, answered⟩
      : ∃ current,
          exec stepAnswering openedHost (connectSent ++ fallsAsleep ++ [strayAck])
            = some current
          ∧ ∃ next,
              stepAnswering current (.resume 0 blankEnv) = some next
              ∧ current.1.pc 0 = .wait .synAck 0
              ∧ next.1.returned 0 = 0
              ∧ current.2 0 = false :=
    ⟨_, rfl, _, rfl, rfl, rfl, by decide +kernel⟩
  have early := (ok.reached run).connect 0 blankEnv 0 next rfl here taken returned
  rw [answered] at early
  cases early

/-- A connection whose SYN-ACK conforms. -/
theorem handshake_valid_connect
    : Along stepAnswering HandshakeOk openedHost
        (connectSent ++ fallsAsleep ++ [synAckArrives, .resume 0 blankEnv]) := by
  refine handshake_valid openedHost_quiet ?_
  refine ⟨⟨fun s named => ?_, trivial⟩, fun one taken => ?_⟩
  · cases (Option.some.inj named : 0 = s)
    rfl
  obtain rfl := Option.some.inj taken
  refine ⟨⟨trivial, trivial⟩, fun two taken => ?_⟩
  obtain rfl := Option.some.inj taken
  refine ⟨⟨trivial, trivial⟩, fun three taken => ?_⟩
  obtain rfl := Option.some.inj taken
  refine ⟨⟨trivial, trivial⟩, fun four taken => ?_⟩
  obtain rfl := Option.some.inj taken
  refine ⟨⟨trivial, fun s peer acknowledges => ?_, ?_⟩, fun five _ => ?_⟩
  · refine ⟨fun sent => ⟨⟨peer, ?_, acknowledges, ?_⟩, ?_⟩, fun sent => ⟨peer, acknowledges, ?_⟩⟩
    · decide +kernel
    · decide +kernel
    · decide +kernel
    · decide +kernel
  · decide +kernel
  · exact ⟨⟨trivial, trivial⟩, fun six _ => trivial⟩

end Xv6Net
