import Mathlib.Data.Set.Insert
import Xv6Net.Library.Stream

/-! Transfer of a stream over a network that may lose, duplicate, delay and reorder. The
sender numbers its blocks by their position in the stream, the receiver takes a block only
at the position it has reached, and acknowledges how far it is. Blocks and acknowledgements
that were once sent stay available for ever, so that any later delivery is allowed and none
is required.
-/

namespace Library

/-- One direction of a transfer of cells of type `α`. -/
structure Flow (α : Type) where
  /-- What the sender has sent. -/
  stream : List α
  /-- What the receiver has taken. -/
  received : List α
  /-- How much the sender knows to be received. -/
  acked : Nat
  /-- The blocks in flight, with their positions. -/
  blocks : Set (Nat × List α)
  /-- The acknowledgements in flight. -/
  acks : Set Nat

namespace Flow

variable {α : Type}

inductive Step : Flow α → Flow α → Prop where
  | send (f : Flow α) (block : List α)
      : Step f
          { f with
            stream := f.stream ++ block
            blocks := insert (f.stream.length, block) f.blocks }
  | accept (f : Flow α) (block : List α) (sent : (f.received.length, block) ∈ f.blocks)
      : Step f
          { f with
            received := f.received ++ block
            acks := insert (f.received.length + block.length) f.acks }
  | confirm (f : Flow α) : Step f { f with acks := insert f.received.length f.acks }
  | acknowledge (f : Flow α) (ack acked : Nat) (sent : ack ∈ f.acks)
      (upper : acked ≤ max f.acked ack)
      : Step f { f with acked }

/-- What has been received is the beginning of what was sent, and nobody claims more. -/
structure Sound (f : Flow α) : Prop where
  received : f.received <+: f.stream
  acked : f.acked ≤ f.received.length
  blocks : ∀ position block, (position, block) ∈ f.blocks → Occurs f.stream block position
  acks : ∀ ack ∈ f.acks, ack ≤ f.received.length

/-- A transfer that has not begun. -/
def start : Flow α := { stream := [], received := [], acked := 0, blocks := ∅, acks := ∅ }

theorem start_sound : (start : Flow α).Sound :=
  ⟨List.nil_prefix, Nat.le_refl 0, nofun, nofun⟩

/-- Every step keeps the transfer sound. Witness: an accepted block occurs in the stream at
the end of what has been received, so it is the next part of the stream.
-/
theorem Sound.step {f next : Flow α} (sound : f.Sound) (step : Step f next) : next.Sound := by
  obtain ⟨received, acked, blocks, acks⟩ := sound
  cases step with
  | send block =>
    refine ⟨received.trans (List.prefix_append _ _), acked, ?_, acks⟩
    rintro position other (same | earlier)
    · cases same
      exact occurs_append f.stream block
    · exact (blocks position other earlier).grow block
  | accept block sent =>
    have occurs := blocks _ _ sent
    have longer : f.received ++ block
        = f.stream.take (f.received.length + block.length) := by
      conv_lhs => rw [List.prefix_iff_eq_take.mp received]
      exact occurs.take_append
    refine ⟨?_, ?_, blocks, ?_⟩
    · simp only
      rw [longer]
      exact List.take_prefix _ _
    · simp only [List.length_append]
      omega
    · rintro ack (rfl | earlier)
      · simp
      · have bound := acks ack earlier
        simp only [List.length_append]
        omega
  | confirm =>
    refine ⟨received, acked, blocks, ?_⟩
    rintro ack (rfl | earlier)
    · exact Nat.le_refl _
    · exact acks ack earlier
  | acknowledge ack acked' sent =>
    have bound := acks ack sent
    refine ⟨received, ?_, blocks, acks⟩
    simp only
    omega

/-- If the sender knows of every cell, the receiver has the whole stream. -/
theorem Sound.complete {f : Flow α} (sound : f.Sound) (all : f.acked = f.stream.length)
    : f.received = f.stream := by
  apply sound.received.eq_of_length
  have upper := sound.received.length_le
  have lower := sound.acked
  omega

end Flow

end Library
