import Xv6Net.Net.Encapsulation

/-! Two rules about neighbours that are not the same: `ip_receive` learns the sources that
agree with the host under the mask GATEWAY, `arp_resolve` sends directly to the addresses
that agree with it under NETMASK. What an answer and the contents of the cache owe to their
difference.
-/

namespace Xv6Net

open Library Memory Transition Kernel Function

/-- The address to which a datagram at `ipDgram` is answered. -/
def sourceOf (mem : Int → UInt8) (ipDgram : Int) : UInt32 := htonl (load32 mem (ipDgram + 12))

/-- A packet that is sent goes to `dst`. -/
def Event.SentTo (dst : UInt32) : Event → Prop
  | .ipSend _ _ _ to_ _ => to_ = dst
  | _ => True

theorem OnlyReads.sentTo {log : List Event} (only : OnlyReads log) (dst : UInt32)
    : ∀ event ∈ log, event.SentTo dst := by
  intro event member
  obtain ⟨addr, count, rfl⟩ := only event member
  trivial

variable {srcIp : UInt32} {mac : List UInt8}

theorem effectLog_sentTo {env : Env} {k : Kernel} {seg size : Int} {d : Disposition}
    (justified : d.Justified k env.frame seg srcIp)
    : ∀ event ∈ effectLog env k seg size d, event.SentTo srcIp := by
  cases d with
  | dropped | request | handshakeAck | synReply | ack => simp [effectLog, Event.SentTo]
  | inOrder asoc | outOfOrder asoc =>
    have addr : (k.sockets asoc).tcon.dstAddr = srcIp := justified.2.1
    simp [effectLog, Event.SentTo, ackEvent, addr]

/-- The ARP cache, the clock and the interface are the same. -/
structure Kernel.SameLink (k next : Kernel) : Prop where
  arp : next.arp = k.arp
  ticks : next.ticks = k.ticks
  myip : next.myip = k.myip
  netmask : next.netmask = k.netmask
  gateway : next.gateway = k.gateway

/-- A transport protocol returns, leaves the ARP cache alone and answers only the source. -/
structure Replies (k : Kernel) (srcIp : UInt32) (out : Outcome Kernel Event Unit) : Prop where
  returns : out.value = some ()
  sameLink : k.SameLink out.state
  sentTo : ∀ event ∈ out.log, event.SentTo srcIp

theorem Replies.after {k : Kernel} {out : Outcome Kernel Event Unit} {reads : List Event}
    (replies : Replies k srcIp out) (earlier : ∀ event ∈ reads, event.SentTo srcIp)
    : Replies k srcIp (out.after reads) := by
  refine ⟨replies.returns, replies.sameLink, fun event member => ?_⟩
  rcases List.mem_append.mp member with before | later
  · exact earlier event before
  · exact replies.sentTo event later

variable (env : Env) (k : Kernel)

theorem tcpReceive_replies (seg size : Int) (srcIp : UInt32)
    : Replies k srcIp ((tcpReceive seg size srcIp).run env k) := by
  obtain ⟨extra, header, run⟩ := tcpReceive_run env k seg size srcIp
  obtain ⟨sockets, requests, procs, state⟩ := receive_frame k env.frame seg size srcIp
  have effect : ∀ event ∈ effectLog env k seg size (disposition k env.frame seg size srcIp),
      event.SentTo srcIp :=
    effectLog_sentTo (disposition_justified k env.frame seg size srcIp)
  rw [run, state]
  refine ⟨rfl, ⟨rfl, rfl, rfl, rfl, rfl⟩, ?_⟩
  intro event member
  simp only [receiveLog, List.mem_append] at member
  rcases member with (reads | reads) | sent
  · simp only [List.mem_cons, List.not_mem_nil, or_false] at reads
    rcases reads with rfl | rfl | rfl <;> trivial
  · rcases header with rfl | rfl
    · cases reads
    · rw [List.mem_singleton.mp reads]
      trivial
  · exact effect event sent

theorem icmpReceive_replies (icmpPkt size : Int) (srcIp : UInt32)
    : Replies k srcIp ((icmpReceive icmpPkt size srcIp).run env k) := by
  simp only [icmpReceive, icmpSendEchoReply, run_bind, run_ite, run_env, run_get, run_emit,
    run_modify, run_pure, rxLoad8_run, rxLoad16_run, rxBytes_run, andThen_some]
  split
  · exact ⟨rfl, ⟨rfl, rfl, rfl, rfl, rfl⟩, by simp [Event.SentTo]⟩
  · split
    · exact ⟨rfl, ⟨rfl, rfl, rfl, rfl, rfl⟩, by simp [Event.SentTo]⟩
    · exact ⟨rfl, ⟨rfl, rfl, rfl, rfl, rfl⟩, by simp [Event.SentTo]⟩

/-- Whatever the transport protocol, `ip_receive` answers only the source. -/
theorem ipDeliver_replies (ipDgram dsize : Int)
    : Replies k (sourceOf env.frame ipDgram) ((ipDeliver ipDgram dsize).run env k) := by
  simp only [ipDeliver, run_bind, run_ite, run_emit, run_pure, rxLoad8_run, rxLoad16_run,
    rxLoad32_run, rxBytes_run, andThen_some, after_after]
  split
  · refine ((icmpReceive_replies env k _ _ _).after ?_).after ?_
    · simp [Event.SentTo]
    · simp [Event.SentTo]
  · split
    · refine ((tcpReceive_replies env k _ _ _).after ?_).after ?_
      · simp [Event.SentTo]
      · simp [Event.SentTo]
    · exact ⟨rfl, ⟨rfl, rfl, rfl, rfl, rfl⟩, by simp [Event.SentTo]⟩

/-- `ip_send` need not wait for the hardware address: it broadcasts, or the next hop is in the
cache.
-/
def SendsAtOnce (dst : UInt32) : Prop :=
  dst = 0xffffffff ∨ ∃ i, ((arpResolve dst).run env k).value = some (.found i)

variable {k}

/-- A valid mapping of the address is in the cache. -/
def Kernel.Cached (k : Kernel) (ip : UInt32) : Prop :=
  ∃ i < arpCacheSize, (k.arp i).ip = ip ∧ (k.arp i).Valid k.ticks

variable {next : Kernel}

theorem Kernel.SameLink.nextHop (same : k.SameLink next)
    : next.nextHop = k.nextHop := by
  funext ip
  rw [Kernel.nextHop, Kernel.nextHop, same.myip, same.netmask, same.gateway]

theorem Kernel.SameLink.cached (same : k.SameLink next) (ip : UInt32)
    : next.Cached ip ↔ k.Cached ip := by
  rw [Cached, Cached, same.arp, same.ticks]

theorem Learned.nextHop (learned : Learned k srcIp mac next)
    : next.nextHop = k.nextHop := by
  obtain ⟨arp, procs, rfl⟩ := learned.frame
  rfl

theorem arpResolve_found_iff (dst : UInt32)
    : (∃ i, ((arpResolve dst).run env k).value = some (.found i))
      ↔ k.Cached (k.nextHop dst) := by
  have spec := arpResolve_spec k dst env
  generalize (arpResolve dst).run env k = out at spec ⊢
  have missing (searched : arpSearch k (k.nextHop dst) = none) : ¬ k.Cached (k.nextHop dst) := by
    rintro ⟨i, inside, holds, valid⟩
    exact arpSearch_eq_none.mp searched i inside holds valid
  cases spec with
  | found i found => exact iff_of_true ⟨i, rfl⟩ ⟨i, arpSearch_spec found⟩
  | waits i searched waited | asks i searched waited taken log | full searched waited taken =>
    exact iff_of_false nofun (missing searched)

/-- Adding the address to the cache makes `arp_alloc` take slot `i`, though its mapping is
valid: no slot is free, nobody waits for slot `i`, and it is the oldest.
-/
def Kernel.EvictedFor (k : Kernel) (ip : UInt32) (i : Nat) : Prop :=
  k.Absent ip ∧ (∀ j < arpCacheSize, (k.arp j).Live k.ticks) ∧ k.Oldest i

/-- The next hop of the source is known once the source was seen: it is in the cache and not
evicted for the source, or it is the source, and the source is learned.
-/
def Kernel.HopKnown (k : Kernel) (srcIp : UInt32) : Prop :=
  (∃ i < arpCacheSize,
    (k.arp i).ip = k.nextHop srcIp
    ∧ (k.arp i).Valid k.ticks
    ∧ ¬ (k.Neighbour srcIp ∧ k.EvictedFor srcIp i))
  ∨ (k.Neighbour srcIp ∧ k.nextHop srcIp = srcIp ∧ k.ticks ≤ k.ticks + arpTtlTicks)

variable {ip : UInt32} {i : Nat}

theorem Kernel.evictedFor_iff (absent : k.Absent ip) (valid : (k.arp i).Valid k.ticks)
    : k.EvictedFor ip i ↔ k.arpTaken = some i := by
  constructor
  · rintro ⟨-, allLive, oldest⟩
    rw [arpTaken, arpFree_eq_none.mpr allLive, arpOldest_eq_some_iff.mpr oldest]
    rfl
  · intro taken
    rcases (arpTaken_spec taken).2 with free | ⟨oldest, allLive⟩
    · exact absurd (Or.inl valid) ((ArpEntry.free_iff_not_live _ _).mp free)
    · exact ⟨absent, allLive, oldest⟩

/-- The cache after slot `i` was overwritten with a mapping of `ip`. -/
theorem Kernel.cached_update {hop : UInt32} (inside : i < arpCacheSize)
    (arp : next.arp = update k.arp i (k.mapping ip mac)) (clock : next.ticks = k.ticks)
    : next.Cached hop
      ↔ (∃ j < arpCacheSize, (k.arp j).ip = hop ∧ (k.arp j).Valid k.ticks ∧ j ≠ i)
        ∨ (ip = hop ∧ k.ticks ≤ k.ticks + arpTtlTicks) := by
  rw [Cached, arp, clock]
  constructor
  · rintro ⟨j, bound, holds, valid⟩
    by_cases same : j = i
    · subst same
      rw [update_self] at holds valid
      exact Or.inr ⟨holds, valid.2⟩
    · rw [update_of_ne same] at holds valid
      exact Or.inl ⟨j, bound, holds, valid, same⟩
  · rintro (⟨j, bound, holds, valid, other⟩ | ⟨holds, forward⟩)
    · refine ⟨j, bound, ?_, ?_⟩
      · rw [update_of_ne other, holds]
      · rw [update_of_ne other]
        exact valid
    · refine ⟨i, inside, ?_, ?_⟩
      · rw [update_self]
        exact holds
      · rw [update_self]
        exact ⟨rfl, forward⟩

theorem Learned.cached_iff (learned : Learned k srcIp mac next)
    : next.Cached (k.nextHop srcIp) ↔ k.HopKnown srcIp := by
  have unchanged (notEvicted : ∀ i, ¬ (k.Neighbour srcIp ∧ k.EvictedFor srcIp i))
      (notLearned : k.Neighbour srcIp → k.nextHop srcIp = srcIp → k.Cached (k.nextHop srcIp))
      : k.Cached (k.nextHop srcIp) ↔ k.HopKnown srcIp := by
    constructor
    · rintro ⟨i, inside, holds, valid⟩
      exact Or.inl ⟨i, inside, holds, valid, notEvicted i⟩
    · rintro (⟨i, inside, holds, valid, -⟩ | ⟨near, direct, -⟩)
      · exact ⟨i, inside, holds, valid⟩
      · exact notLearned near direct
  cases learned with
  | ignored foreign =>
    exact unchanged (fun i both => foreign both.1) fun near => absurd near foreign
  | cached i near found =>
    have spec := arpSearch_spec found
    refine unchanged (fun j both => ?_) fun _ direct => ⟨i, spec.1, ?_, spec.2.2⟩
    · exact both.2.1 i spec.1 spec.2.1 (Or.inl spec.2.2)
    · rw [spec.2.1, direct]
  | answered i near searched waited =>
    obtain ⟨inside, holds, requested⟩ := arpRequested_spec waited
    have arp : (k.answer i mac).arp = update k.arp i (k.mapping srcIp mac) := by
      rw [← holds]
      rfl
    rw [cached_update inside arp rfl, Kernel.HopKnown]
    refine or_congr ?_ ?_
    · refine exists_congr fun j => and_congr_right fun _ => and_congr_right fun _ =>
        and_congr_right fun valid => iff_of_true ?_ ?_
      · rintro rfl
        exact valid.not_requested requested
      · rintro ⟨-, evicted⟩
        exact evicted.1 i inside holds (Or.inr requested)
    · exact ⟨fun both => ⟨near, both.1.symm, both.2⟩, fun all => ⟨all.2.1.symm, all.2.2⟩⟩
  | stored i near searched waited taken =>
    have inside := (arpTaken_spec taken).1
    have absent := absent_of_none searched waited
    have arp : (k.store i srcIp mac).arp = update k.arp i (k.mapping srcIp mac) := rfl
    rw [cached_update inside arp rfl, Kernel.HopKnown]
    refine or_congr ?_ ?_
    · refine exists_congr fun j => and_congr_right fun _ => and_congr_right fun _ =>
        and_congr_right fun valid => ?_
      rw [evictedFor_iff absent valid, taken]
      simp only [near, true_and, Option.some.injEq, ne_eq, eq_comm]
    · exact ⟨fun both => ⟨near, both.1.symm, both.2⟩, fun all => ⟨all.2.1.symm, all.2.2⟩⟩

/-- A packet that `ip_receive` sends goes back to the source, and can be sent at once exactly
if the source is the broadcast address or its next hop is known.
-/
theorem reply_sent_at_once_iff (k : Kernel) (ipDgram dsize rxMac : Int) (protocol : UInt8)
    (payload : List UInt8) (srcIp dst : UInt32) (size : Int)
    (sent
      : .ipSend protocol payload srcIp dst size
        ∈ ((ipReceive ipDgram dsize rxMac).run env k).log)
    : dst = sourceOf env.frame ipDgram
      ∧ (SendsAtOnce env ((ipReceive ipDgram dsize rxMac).run env k).state dst
        ↔ dst = 0xffffffff ∨ k.HopKnown dst) := by
  have spec := ipReceive_spec env k ipDgram dsize rxMac
  generalize (ipReceive ipDgram dsize rxMac).run env k = out at spec sent ⊢
  cases spec with
  | rejected bad reads only | full header near searched waited taken reads only =>
    obtain ⟨addr, count, impossible⟩ := only _ sent
    cases impossible
  | delivered header next learned reads only =>
    have replies := (ipDeliver_replies env next ipDgram dsize).after (only.sentTo _)
    have source : dst = sourceOf env.frame ipDgram := replies.sentTo _ sent
    refine ⟨source, or_congr_right ?_⟩
    rw [arpResolve_found_iff, replies.sameLink.nextHop, replies.sameLink.cached,
      learned.nextHop, source]
    exact learned.cached_iff

section

set_option maxRecDepth 20000

/-- The answer to a host that is pinged for the first time, from 192.168.2.3, has to wait: the
source differs from the host under the mask 192.168.2.1 and is not learned.
-/
theorem ping_from_neighbour_sleeps
    : ∃ payload size,
        .ipSend ipProtocolIcmp payload 0xc0a80202 0xc0a80203 size
          ∈ ((ipReceive 14 46 6).run (echoRequest 46 0xf579)
              (Kernel.boot 0xc0a80202 0xffffff00 0xc0a80201)).log
        ∧ ¬ SendsAtOnce (echoRequest 46 0xf579)
            ((ipReceive 14 46 6).run (echoRequest 46 0xf579)
              (Kernel.boot 0xc0a80202 0xffffff00 0xc0a80201)).state
            0xc0a80203 := by
  refine ⟨_, _, List.mem_of_getLast? rfl, ?_⟩
  rw [SendsAtOnce, arpResolve_found_iff, Kernel.Cached]
  decide +kernel

/-- At 192.168.2.5 the source of the same request is learned, and is answered at once. -/
theorem reply_sent_at_once_learned
    : ∃ payload size,
        .ipSend ipProtocolIcmp payload 0xc0a80205 0xc0a80203 size
          ∈ ((ipReceive 14 46 6).run (echoRequest 46 0xf579)
              (Kernel.boot 0xc0a80205 0xffffff00 0xc0a80201)).log
        ∧ SendsAtOnce (echoRequest 46 0xf579)
            ((ipReceive 14 46 6).run (echoRequest 46 0xf579)
              (Kernel.boot 0xc0a80205 0xffffff00 0xc0a80201)).state
            0xc0a80203 := by
  have sent := List.mem_of_getLast?
    (show ((ipReceive 14 46 6).run (echoRequest 46 0xf579)
      (Kernel.boot 0xc0a80205 0xffffff00 0xc0a80201)).log.getLast? = some _ from rfl)
  exact ⟨_, _, sent, (reply_sent_at_once_iff _ _ _ _ _ _ _ _ _ _ sent).2.mpr
    (Or.inr (Or.inr ⟨by decide, by decide, by decide⟩))⟩

end

/-- What happens to the cache of a host whose interface stays configured as it is. -/
inductive LinkAction where
  /-- `ip_receive` of a datagram. -/
  | datagram (env : Env) (ipDgram dsize rxMac : Int)
  /-- `arp_receive`. -/
  | arp (env : Env) (arpPkt : Int)
  /-- `arp_resolve`, up to where it returns or sleeps. -/
  | resolve (env : Env) (ip : UInt32)
  | clock (ticks : UInt32)

/-- The state that the code leaves, if it does not panic. -/
def linkStep (k : Kernel) : LinkAction → Option Kernel
  | .datagram env ipDgram dsize rxMac =>
    let out := (ipReceive ipDgram dsize rxMac).run env k
    out.value.map fun _ => out.state
  | .arp env arpPkt =>
    let out := (arpReceive arpPkt).run env k
    out.value.map fun _ => out.state
  | .resolve env ip =>
    let out := (arpResolve ip).run env k
    out.value.map fun _ => out.state
  | .clock ticks => some { k with ticks }

namespace Kernel

/-- The address is on the link, as `arp_resolve` sees it. -/
def OnLink (k : Kernel) (ip : UInt32) : Prop := ip &&& k.netmask = k.myip &&& k.netmask

/-- Every slot in use holds an address on the link. -/
def CacheOnLink (k : Kernel) : Prop :=
  ∀ i < arpCacheSize, (k.arp i).status ≠ .empty → k.OnLink (k.arp i).ip

/-- A valid datagram from the link is processed, and leaves its source in the cache. -/
def LeavesEntry (k : Kernel) : LinkAction → Prop
  | .datagram env ipDgram dsize rxMac =>
    HeaderOk env.frame ipDgram
    → k.OnLink (sourceOf env.frame ipDgram)
    → ∃ next,
        linkStep k (.datagram env ipDgram dsize rxMac) = some next
        ∧ next.Cached (sourceOf env.frame ipDgram)
  | _ => True

/-- The source is taken for a neighbour exactly if it is on the link, and then there is room for it
and the clock is not about to wrap.
-/
def RulesAgree (k : Kernel) : LinkAction → Prop
  | .datagram env ipDgram _ _ =>
    HeaderOk env.frame ipDgram
    → (k.Neighbour (sourceOf env.frame ipDgram) ↔ k.OnLink (sourceOf env.frame ipDgram))
      ∧ (k.OnLink (sourceOf env.frame ipDgram)
        → CanLearn k (sourceOf env.frame ipDgram) ∧ k.ticks ≤ k.ticks + arpTtlTicks)
  | _ => True

instance (k : Kernel) (ip : UInt32) : Decidable (k.OnLink ip) :=
  inferInstanceAs (Decidable (_ = _))

instance (k : Kernel) : Decidable k.CacheOnLink :=
  inferInstanceAs (Decidable (∀ i < arpCacheSize, _))

variable {k next : Kernel}

theorem nextHop_onLink (gateway : k.OnLink k.gateway) (ip : UInt32) : k.OnLink (k.nextHop ip) := by
  rw [nextHop]
  split
  · exact gateway
  · rename_i near
    exact not_not.mp near

variable {i : Nat} {action : LinkAction}

/-- A call of `arp.c` brings in no address that is not on the link. -/
theorem CacheOnLink.update (ok : k.CacheOnLink) (next : Kernel) {entry : ArpEntry}
    (arp : next.arp = update k.arp i entry) (same : next.OnLink = k.OnLink)
    (near : k.OnLink entry.ip)
    : next.CacheOnLink := by
  intro j inside used
  rw [same]
  rw [arp] at used ⊢
  by_cases changed : j = i
  · subst changed
    rw [update_self]
    exact near
  · rw [update_of_ne changed] at used ⊢
    exact ok j inside used

theorem CacheOnLink.answer (ok : k.CacheOnLink) (mac : List UInt8) {ip : UInt32}
    (waited : arpRequested k ip = some i)
    : (k.answer i mac).CacheOnLink := by
  obtain ⟨inside, -, requested⟩ := arpRequested_spec waited
  refine ok.update (k.answer i mac) rfl rfl (ok i inside ?_)
  rw [requested]
  decide

theorem CacheOnLink.learned (ok : k.CacheOnLink) {srcIp : UInt32} {mac : List UInt8}
    (learned : Learned k srcIp mac next) (agree : k.Neighbour srcIp → k.OnLink srcIp)
    : next.CacheOnLink := by
  cases learned with
  | ignored | cached => exact ok
  | answered i near searched waited => exact ok.answer mac waited
  | stored i near =>
    exact ok.update (k.store i srcIp mac) rfl rfl (agree near)

theorem SameLink.cacheOnLink (same : k.SameLink next) (ok : k.CacheOnLink)
    : next.CacheOnLink := by
  simpa only [CacheOnLink, OnLink, same.arp, same.netmask, same.myip] using ok

/-- The interface is configured with a gateway on the link, and so is what the cache holds. -/
structure LinkOk (k : Kernel) : Prop where
  gateway : k.OnLink k.gateway
  cache : k.CacheOnLink

theorem LinkOk.datagram (ok : k.LinkOk) {env : Env} {ipDgram dsize rxMac : Int}
    (agree : k.RulesAgree (.datagram env ipDgram dsize rxMac))
    (taken : linkStep k (.datagram env ipDgram dsize rxMac) = some next)
    : next.LinkOk := by
  simp only [linkStep] at taken
  have spec := ipReceive_spec env k ipDgram dsize rxMac
  generalize (ipReceive ipDgram dsize rxMac).run env k = out at spec taken
  cases spec with
  | rejected => exact Option.some.inj taken ▸ ok
  | full => cases taken
  | delivered header middle learned reads only =>
    obtain ⟨returns, same, -⟩ := ipDeliver_replies env middle ipDgram dsize
    rw [after_value, returns] at taken
    obtain rfl := Option.some.inj taken
    have cache := same.cacheOnLink (ok.cache.learned learned (agree header).1.mp)
    obtain ⟨arp, procs, rfl⟩ := learned.frame
    refine ⟨?_, cache⟩
    have gateway := ok.gateway
    simp only [OnLink, after_state, same.gateway, same.netmask, same.myip] at gateway ⊢
    exact gateway

theorem LinkOk.step (ok : k.LinkOk) (agree : k.RulesAgree action)
    (taken : linkStep k action = some next)
    : next.LinkOk := by
  cases action with
  | datagram => exact ok.datagram agree taken
  | arp env arpPkt =>
    simp only [linkStep] at taken
    have spec := arpReceive_spec k env arpPkt
    generalize (arpReceive arpPkt).run env k = out at spec taken
    cases spec with
    | ignored => exact Option.some.inj taken ▸ ok
    | answered i log reply waited =>
      obtain rfl := Option.some.inj taken
      exact ⟨ok.gateway, ok.cache.answer _ waited⟩
  | resolve env ip =>
    simp only [linkStep] at taken
    have spec := arpResolve_spec k ip env
    generalize (arpResolve ip).run env k = out at spec taken
    cases spec with
    | found i found | waits i searched waited => exact Option.some.inj taken ▸ ok
    | asks i =>
      obtain rfl := Option.some.inj taken
      exact ⟨ok.gateway, ok.cache.update (k.request i (k.nextHop ip)) rfl rfl
        (nextHop_onLink ok.gateway ip)⟩
    | full => cases taken
  | clock =>
    obtain rfl := Option.some.inj taken
    exact ⟨ok.gateway, ok.cache⟩

/-- A neighbour on the link is its own next hop, so it is found once it was learned. -/
theorem leavesEntry_of_rulesAgree (agree : k.RulesAgree action)
    : k.LeavesEntry action := by
  cases action with
  | arp | resolve | clock => trivial
  | datagram env ipDgram dsize rxMac =>
    intro header onLink
    obtain ⟨rule, room⟩ := agree header
    obtain ⟨can, forward⟩ := room onLink
    have near := rule.mpr onLink
    have direct : k.nextHop (sourceOf env.frame ipDgram) = sourceOf env.frame ipDgram :=
      if_neg (not_not_intro onLink)
    simp only [linkStep]
    have spec := ipReceive_spec env k ipDgram dsize rxMac
    generalize (ipReceive ipDgram dsize rxMac).run env k = out at spec ⊢
    cases spec with
    | rejected bad => exact absurd header bad
    | full _ near searched waited taken =>
      exact absurd ⟨near, searched, waited, Option.or_eq_none_iff.mp taken⟩ can
    | delivered _ middle learned =>
      obtain ⟨returns, same, -⟩ := ipDeliver_replies env middle ipDgram dsize
      have found := learned.cached_iff.mpr (Or.inr ⟨near, direct, forward⟩)
      refine ⟨((ipDeliver ipDgram dsize).run env middle).state, ?_, ?_⟩
      · rw [after_value, returns]
        rfl
      · rw [same.cached, ← direct]
        exact found

end Kernel

/-- In every run from an empty cache whose datagrams come from sources that the two rules agree
on, only addresses on the link are cached, and every valid datagram from the link leaves its
source in the cache.
-/
theorem only_onLink_cached (k : Kernel) (actions : List LinkAction) (gateway : k.OnLink k.gateway)
    (empty : ∀ i < arpCacheSize, (k.arp i).status = .empty)
    (agree : Along linkStep Kernel.RulesAgree k actions)
    : Throughout linkStep Kernel.CacheOnLink k actions
      ∧ Along linkStep Kernel.LeavesEntry k actions := by
  have initially : k.LinkOk := ⟨gateway, fun i inside used => absurd (empty i inside) used⟩
  have always := agree.invariant initially fun _ _ _ ok allowed taken => ok.step allowed taken
  exact ⟨always.mono fun _ ok => ok.cache,
    agree.mono fun _ _ allowed => leavesEntry_of_rulesAgree allowed⟩

section

set_option maxRecDepth 20000

/-- The memory that holds a datagram from `srcIp` with an unknown protocol and no payload. -/
def emptyDatagram (srcIp : UInt32) : Env :=
  { blankMemory with
    frame := memoryOf (ipDatagram (fun _ => 0) 0 17 [] srcIp 0xc0a80202) }

/-- A datagram from 192.168.3.2 is cached at 192.168.2.2, though it is off the link. -/
theorem offLink_source_cached
    : (Kernel.boot 0xc0a80202 0xffffff00 0xc0a80201).OnLink 0xc0a80201
      ∧ ¬ Throughout linkStep Kernel.CacheOnLink (Kernel.boot 0xc0a80202 0xffffff00 0xc0a80201)
          [.datagram (emptyDatagram 0xc0a80302) 0 20 0] := by
  refine ⟨by decide, fun always => ?_⟩
  have wrong : (exec linkStep (Kernel.boot 0xc0a80202 0xffffff00 0xc0a80201)
      [.datagram (emptyDatagram 0xc0a80302) 0 20 0]).map (fun k => decide k.CacheOnLink)
      = some false := by
    decide +kernel
  obtain ⟨final, run, notOk⟩ := Option.map_eq_some_iff.mp wrong
  exact of_decide_eq_false notOk (always.finish run)

/-- A datagram from 192.168.2.4 is learned there. -/
theorem only_onLink_cached_neighbour
    : (exec linkStep (Kernel.boot 0xc0a80202 0xffffff00 0xc0a80201)
        [.datagram (emptyDatagram 0xc0a80204) 0 20 0]).isSome = true
      ∧ Throughout linkStep Kernel.CacheOnLink (Kernel.boot 0xc0a80202 0xffffff00 0xc0a80201)
          [.datagram (emptyDatagram 0xc0a80204) 0 20 0]
      ∧ Along linkStep Kernel.LeavesEntry (Kernel.boot 0xc0a80202 0xffffff00 0xc0a80201)
          [.datagram (emptyDatagram 0xc0a80204) 0 20 0] := by
  refine ⟨by decide +kernel, only_onLink_cached _ _ (by decide) (by decide) ⟨fun _ => ?_, ?_⟩⟩
  · exact ⟨by decide +kernel, fun _ =>
      ⟨fun full => absurd full.2.2.2.1 (by decide), by decide +kernel⟩⟩
  · exact fun _ _ => trivial

end

end Xv6Net
