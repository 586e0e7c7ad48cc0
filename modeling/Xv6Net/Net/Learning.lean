import Xv6Net.Net.ArpCache
import Xv6Net.Net.Receive

/-! What `ip_receive` makes of a datagram: it rejects the header, or adds the source to the
ARP cache if it takes it for a neighbour, and hands the payload on.
-/

namespace Xv6Net

open Library Memory

/-- The datagram at `ipDgram` passes the header checks of `ip_receive`. -/
structure HeaderOk (mem : Int → UInt8) (ipDgram : Int) : Prop where
  version : mem ipDgram >>> 4 = 4
  ttl : mem (ipDgram + 8) ≠ 0
  checksum : checksum mem ipDgram ipHdrSize 0 = 0

/-- `ip_receive` takes the source for a neighbour. -/
def Kernel.Neighbour (k : Kernel) (srcIp : UInt32) : Prop :=
  srcIp &&& k.gateway = k.myip &&& k.gateway

instance (k : Kernel) (srcIp : UInt32) : Decidable (k.Neighbour srcIp) :=
  inferInstanceAs (Decidable (_ = _))

/-- The ARP cache after a source was seen, unless it was full. -/
inductive Learned (k : Kernel) (srcIp : UInt32) (mac : List UInt8) : Kernel → Prop where
  | ignored (foreign : ¬ k.Neighbour srcIp) : Learned k srcIp mac k
  | cached (i : Nat) (near : k.Neighbour srcIp) (found : arpSearch k srcIp = some i)
      : Learned k srcIp mac k
  | answered (i : Nat) (near : k.Neighbour srcIp) (searched : arpSearch k srcIp = none)
      (waited : arpRequested k srcIp = some i)
      : Learned k srcIp mac (k.answer i mac)
  | stored (i : Nat) (near : k.Neighbour srcIp) (searched : arpSearch k srcIp = none)
      (waited : arpRequested k srcIp = none) (taken : k.arpTaken = some i)
      : Learned k srcIp mac (k.store i srcIp mac)

theorem Learned.frame {k next : Kernel} {srcIp : UInt32} {mac : List UInt8}
    (learned : Learned k srcIp mac next)
    : ∃ arp procs, next = { k with arp, procs } := by
  cases learned with
  | ignored | cached | answered | stored => exact ⟨_, _, rfl⟩

def OnlyReads (log : List Event) : Prop := ∀ event ∈ log, ∃ addr count, event = .read addr count

/-- The outcomes of `ip_receive`. -/
inductive IpReceived (env : Env) (k : Kernel) (ipDgram dsize rxMac : Int)
    : Outcome Kernel Event Unit → Prop where
  | rejected (bad : ¬ HeaderOk env.frame ipDgram) (reads : List Event) (only : OnlyReads reads)
      : IpReceived env k ipDgram dsize rxMac ⟨some (), k, reads⟩
  | full (header : HeaderOk env.frame ipDgram)
      (near : k.Neighbour (htonl (load32 env.frame (ipDgram + 12))))
      (searched : arpSearch k (htonl (load32 env.frame (ipDgram + 12))) = none)
      (waited : arpRequested k (htonl (load32 env.frame (ipDgram + 12))) = none)
      (taken : k.arpTaken = none) (reads : List Event) (only : OnlyReads reads)
      : IpReceived env k ipDgram dsize rxMac ⟨none, k, reads⟩
  | delivered (header : HeaderOk env.frame ipDgram) (next : Kernel)
      (learned : Learned k (htonl (load32 env.frame (ipDgram + 12))) (slice env.frame rxMac 6) next)
      (reads : List Event) (only : OnlyReads reads)
      : IpReceived env k ipDgram dsize rxMac
          (((ipDeliver ipDgram dsize).run env next).after reads)

theorem ipReceive_spec (env : Env) (k : Kernel) (ipDgram dsize rxMac : Int)
    : IpReceived env k ipDgram dsize rxMac ((ipReceive ipDgram dsize rxMac).run env k) := by
  simp only [ipReceive, run_bind, run_ite, run_get, rxLoad8_run,
    rxLoad32_run, rxChecksum_run, andThen_some]
  split
  · rename_i version
    exact .rejected (fun header => version header.version) _ (by simp [OnlyReads])
  · rename_i version
    split
    · rename_i ttl
      exact .rejected (fun header => header.ttl ttl) _ (by simp [OnlyReads])
    · rename_i ttl
      split
      · rename_i checksum
        exact .rejected (fun header => checksum header.checksum) _ (by simp [OnlyReads])
      · rename_i checksum
        have header : HeaderOk env.frame ipDgram :=
          ⟨not_not.mp version, ttl, not_not.mp checksum⟩
        split
        · rename_i near
          have spec := arpAdd_spec k (htonl (load32 env.frame (ipDgram + 12))) env rxMac
          generalize (arpAdd (htonl (load32 env.frame (ipDgram + 12))) rxMac).run env k = out
            at spec ⊢
          cases spec with
          | cached i found =>
            simp only [andThen_some, after_after]
            exact .delivered header k (.cached i near found) _ (by simp [OnlyReads])
          | answered i searched waited =>
            simp only [andThen_some, after_after]
            exact .delivered header _ (.answered i near searched waited) _ (by simp [OnlyReads])
          | stored i searched waited taken =>
            simp only [andThen_some, after_after]
            exact .delivered header _ (.stored i near searched waited taken) _
              (by simp [OnlyReads])
          | full searched waited taken =>
            exact .full header near searched waited taken _ (by simp [OnlyReads])
        · rename_i foreign
          simp only [after_after]
          exact .delivered header k (.ignored foreign) _ (by simp [OnlyReads])

end Xv6Net
