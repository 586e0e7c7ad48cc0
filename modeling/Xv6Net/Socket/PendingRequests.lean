import Xv6Net.Socket.Moves

/-! The pending connection requests. `tcp_receive` stores a SYN in the array `requests`,
which all listening sockets share, and queues a pointer to it; `accept` reads it back. The
search for a free entry stops at the first entry in use, so it never finds one: from boot on,
every request is stored behind the end of the array.
-/

namespace Xv6Net

open Library Memory Transition Function

structure Arrival where
  clientIp : UInt32
  packet : List UInt8

/-- The arrivals that wait at each socket, oldest first. -/
abbrev Ledger := Nat → List Arrival

/-- The history of the arrivals: queued by `tcp_receive`, dequeued by `accept`, dropped by `listen`.
-/
def noteArrivals (sys : Sys) : SysAction → Ledger → Ledger
  | .receive env seg size srcIp, ledger =>
    match disposition sys.kernel env.frame seg size srcIp with
    | .request psoc =>
      update ledger psoc
        (ledger psoc ++ [⟨srcIp, slice env.frame seg (moveCount size)⟩])
    | _ => ledger
  | .resume pid _, ledger =>
    match sys.pc pid with
    | .acceptDequeue s => update ledger s (ledger s).tail
    | _ => ledger
  | .call pid (.listen sockfd) _, ledger =>
    match sys.kernel.socketAt pid sockfd with
    | some s =>
      if (sys.kernel.sockets s).state = .bound then update ledger s [] else ledger
    | none => ledger
  | _, ledger => ledger

/-- The host with the history of its arrivals. -/
abbrev stepNoting : Sys × Ledger → SysAction → Option (Sys × Ledger) :=
  withHistory Sys.step noteArrivals

/-- A request is stored inside the array, at an entry that no waiting request refers to. -/
def StoredApart (sys : Sys) (action : SysAction) : Prop :=
  ∀ next log i,
    sys.act action = some (next, log)
    → Event.requestStore i ∈ log
    → i < maxPendingRequests
      ∧ ∀ s, requestPtr i ∉ (sys.kernel.sockets s).waitqueue.items

/-- `accept` finds the client and the segment that arrived with the SYN it dequeues. -/
def FindsArrival (sys : Sys) (ledger : Ledger) : SysAction → Prop
  | .resume pid env =>
    ∀ s arrival rest,
      sys.Runnable pid
      → sys.pc pid = .acceptDequeue s
      → ledger s = arrival :: rest
      → let request :=
          requestAt env sys.kernel (dequeue (sys.kernel.sockets s).waitqueue).1
        request.clientIp = arrival.clientIp
        ∧ slice request.requestPacket 0 arrival.packet.length = arrival.packet
  | _ => True

/-- The pending requests are handled properly by this step. -/
def PendingOk (current : Sys × Ledger) (action : SysAction) : Prop :=
  StoredApart current.1 action ∧ FindsArrival current.1 current.2 action

/-- A valid segment with SYN set reaches a listening socket whose queue has room. -/
def SynArrives (sys : Sys) : SysAction → Prop
  | .receive env seg size srcIp =>
    Admitted sys.kernel env.frame seg size srcIp
    ∧ ∃ psoc,
        (sys.kernel.ports (dstPortOf env.frame seg).toNat).passiveSocket = some psoc
        ∧ (sys.kernel.sockets psoc).tcon.state = .listen
        ∧ flagsOf env.frame seg &&& tcpFlagSyn ≠ 0
        ∧ isQueueFull (sys.kernel.sockets psoc).waitqueue = false
  | _ => False

def NoRequests (k : Kernel) : Prop :=
  ∀ i, i < maxPendingRequests → (k.requests i).clientIp = 0

theorem NoRequests.requestIndex {k : Kernel} (unused : NoRequests k)
    : requestIndex k.requests = maxPendingRequests := by
  have none_ : (List.range maxPendingRequests).find?
      (fun i => (k.requests i).clientIp ≠ 0) = none := by
    simp only [List.find?_eq_none, List.mem_range]
    intro i inside
    simp [unused i inside]
  rw [Xv6Net.requestIndex, none_, Option.getD_none]

variable {sys after : Sys} {action : SysAction} {log : List Event}

variable {env : Env} {seg size : Int} {srcIp : UInt32} {current : Sys × Ledger}

theorem SynArrives.request (arrives : SynArrives sys (.receive env seg size srcIp))
    : ∃ psoc, disposition sys.kernel env.frame seg size srcIp = .request psoc := by
  obtain ⟨admitted, psoc, passive, listening, syn, room⟩ := arrives
  refine ⟨psoc, ?_⟩
  simp only [disposition, if_pos admitted, passive, passiveDisposition]
  rw [if_pos ⟨listening, syn, room⟩]

theorem SynArrives.of_disposition {psoc : Nat}
    (request : disposition sys.kernel env.frame seg size srcIp = .request psoc)
    : SynArrives sys (.receive env seg size srcIp) := by
  have justified := disposition_justified sys.kernel env.frame seg size srcIp
  rw [request] at justified
  refine ⟨?_, psoc, justified⟩
  by_contra rejected
  simp [disposition, rejected] at request

theorem SysMove.requestStore (move : SysMove sys action after log) {i : Nat}
    (stored : Event.requestStore i ∈ log)
    : SynArrives sys action := by
  cases move with
  | call pid c env next k' idle runnable move | kill pid => cases stored
  | resume pid env pc next k' log located runnable move =>
    cases move with
    | write s call call' k' log move =>
      cases move with
      | resend =>
        simp only [resendLog] at stored
        split at stored <;> simp at stored
      | _ => simp [dataEvent] at stored
    | _ => simp [openingEvent, ackEvent] at stored
  | receive env seg size srcIp extra header =>
    cases taken : disposition sys.kernel env.frame seg size srcIp with
    | request => exact .of_disposition taken
    | _ =>
      rcases header with rfl | rfl <;>
        simp [receiveLog, taken, effectLog, ackEvent] at stored

theorem SynArrives.stored (arrives : SynArrives sys action)
    : ∃ next log, sys.act action = some (next, log)
        ∧ Event.requestStore (Xv6Net.requestIndex sys.kernel.requests) ∈ log := by
  cases action with
  | receive env seg size srcIp =>
    obtain ⟨psoc, taken⟩ := arrives.request
    obtain ⟨extra, -, run⟩ := tcpReceive_run env sys.kernel seg size srcIp
    refine ⟨_, _, rfl, ?_⟩
    simp [run, receiveLog, taken, effectLog]
  | _ => exact arrives.elim

theorem SysMove.requests (move : SysMove sys action after log) (quiet : ¬ SynArrives sys action)
    : after.kernel.requests = sys.kernel.requests := by
  cases move with
  | call pid c env next k' idle runnable move
  | resume pid env pc next k' log located runnable move =>
    have kept := move.requests
    cases next <;> exact kept
  | kill => rfl
  | receive env seg size srcIp =>
    cases taken : disposition sys.kernel env.frame seg size srcIp with
    | request => exact absurd (.of_disposition taken) quiet
    | inOrder =>
      simp only [Kernel.receive, taken, Kernel.effect, Kernel.appendData]
      split <;> rfl
    | _ => simp [Kernel.receive, taken, Kernel.effect]

theorem NoRequests.step (unused : NoRequests sys.kernel) (move : SysMove sys action after log)
    (quiet : ¬ SynArrives sys action)
    : NoRequests after.kernel := by
  intro i inside
  rw [move.requests quiet]
  exact unused i inside

theorem NoRequests.quiet (unused : NoRequests sys.kernel) (apart : StoredApart sys action)
    : ¬ SynArrives sys action := by
  intro arrives
  obtain ⟨next, log, acted, stored⟩ := arrives.stored
  rw [unused.requestIndex] at stored
  exact absurd (apart next log _ acted stored).1 (lt_irrefl _)

structure Unused (current : Sys × Ledger) : Prop where
  tidy : current.1.kernel.Tidy
  requests : NoRequests current.1.kernel
  ledger : current.2 = fun _ => []

theorem noteArrivals_quiet (quiet : ¬ SynArrives sys action)
    : noteArrivals sys action (fun _ => []) = fun _ => [] := by
  unfold noteArrivals
  split
  · split
    · rename_i taken
      exact absurd (.of_disposition taken) quiet
    · rfl
  · split
    · exact update_eq_self ..
    · rfl
  · split
    · split
      · exact update_eq_self ..
      · rfl
    · rfl
  · rfl

theorem Unused.step {next : Sys × Ledger} (unused : Unused current)
    (quiet : ¬ SynArrives current.1 action) (taken : stepNoting current action = some next)
    : Unused next := by
  obtain ⟨stepped, noted⟩ := withHistory_eq_some taken
  obtain ⟨log, -, move⟩ := Sys.step_move unused.tidy stepped
  refine ⟨move.tidy unused.tidy, unused.requests.step move quiet, ?_⟩
  rw [noted, unused.ledger]
  exact noteArrivals_quiet quiet

theorem Unused.pendingOk (unused : Unused current) (quiet : ¬ SynArrives current.1 action)
    : PendingOk current action := by
  constructor
  · intro next log i acted stored
    exact absurd ((Sys.act_move unused.tidy acted).requestStore stored) quiet
  · cases action with
    | resume =>
      intro s arrival rest runnable located waiting
      rw [unused.ledger] at waiting
      cases waiting
    | _ => trivial

def bootNoting (myip netmask gateway : UInt32) : Sys × Ledger :=
  (Sys.boot myip netmask gateway, fun _ => [])

theorem bootNoting_unused (myip netmask gateway : UInt32)
    : Unused (bootNoting myip netmask gateway) :=
  ⟨boot_tidy myip netmask gateway, fun _ _ => rfl, rfl⟩

/-- The pending requests are handled properly in exactly those runs in which no SYN arrives
at a listening socket with room in its queue. Witness: the array stays unused up to the first
such SYN, and that one is stored behind its end.
-/
theorem pendingRequests_ok_iff (myip netmask gateway : UInt32) (run : List SysAction)
    : Along stepNoting PendingOk (bootNoting myip netmask gateway) run
      ↔ Along stepNoting (fun current action => ¬ SynArrives current.1 action)
          (bootNoting myip netmask gateway) run := by
  have initially := bootNoting_unused myip netmask gateway
  constructor
  · intro ok
    refine ok.strengthen initially ?_ ?_
    · intro current action next unused proper taken
      exact unused.step (unused.requests.quiet proper.1) taken
    · intro current action unused proper
      exact unused.requests.quiet proper.1
  · intro quiet
    refine quiet.strengthen initially ?_ ?_
    · intro current action next unused silent taken
      exact unused.step silent taken
    · intro current action unused silent
      exact unused.pendingOk silent

def blankEnv : Env :=
  { frame := fun _ => 0, stale := fun _ => 0, kalloc := some fun _ => 0 }

/-- A process opens a socket, binds it to port 80 and listens. -/
def listenAt80 : List SysAction :=
  [.call 0 .socket blankEnv, .call 0 (.bind 0 0xc0a80202 80) blankEnv, .resume 0 blankEnv,
    .call 0 (.listen 0) blankEnv]

/-- A client at 192.168.2.3 sends its SYN to port 80. -/
def firstSyn : SysAction :=
  .receive
    { blankEnv with
      frame := tcpPack (fun _ => 0) 0xc0a80203 1024 80 0xc0a80202 initialSeq 0 tcpFlagSyn 24
        tcpMssOption }
    0 28 0xc0a80203

/-- The first SYN that a listening socket receives is stored outside the array. -/
theorem firstSyn_stored_outside
    : ¬ Along stepNoting PendingOk (bootNoting 0xc0a80202 0xffffff00 0xc0a80201)
        (listenAt80 ++ [firstSyn]) := by
  intro ok
  obtain ⟨current, run, unused, arrives⟩
      : ∃ current,
          exec stepNoting (bootNoting 0xc0a80202 0xffffff00 0xc0a80201) listenAt80
            = some current
          ∧ NoRequests current.1.kernel
          ∧ SynArrives current.1 firstSyn :=
    ⟨_, rfl, fun _ _ => rfl, by decide +kernel, 0, rfl, rfl, by decide +kernel, rfl⟩
  exact unused.quiet (ok.reached run).1 arrives

end Xv6Net
