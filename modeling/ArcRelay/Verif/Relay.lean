import ArcRelay.Relay

/-!
# What a relay carries, and how it ends

Every datagram that a relay gives to the endpoint at one end is one that the endpoint at
the other end sent, in the order the bridge took them. While both bridges run nothing that
was taken is missing. When one bridge has ended, so does the other, and the endpoints of
both inner connections have been told to close.
-/

namespace ArcRelay.Relay

variable {limit : Nat} {own other after : End}

/-! ## What one input can do -/

/-- Nothing is recorded, and a connection that was closed still is. -/
structure SameBooks (own after : End) : Prop where
  address : after.tunnel.address = own.tunnel.address
  emitted : after.emitted = own.emitted
  arrived : after.arrived = own.arrived
  taken : after.taken = own.taken
  stream : after.stream = own.stream
  delivered : after.delivered = own.delivered
  closed : own.isClosed → after.isClosed

/-- What becomes of the two ends when something happens at the first. -/
inductive Moved (limit : Nat) (own other : End) : End → End → Prop where
  | stays {after : End} (same : SameBooks own after)
    (bridge : after.tunnel.bridge = own.tunnel.bridge) : Moved limit own other after other
  | ends {after : End} (same : SameBooks own after) (ended : after.isRunning = false)
    (closed : after.isClosed) : Moved limit own other after other
  | emits (packet : Bytes) :
    Moved limit own other { own with emitted := own.emitted ++ [packet] } other
  | arrives (packet : Bytes) (source : SocketAddr)
    (genuine : source = own.tunnel.address → packet ∈ own.emitted) :
    Moved limit own other { own with arrived := own.arrived ++ [(packet, source)] } other
  | skips {datagram : Bytes × SocketAddr} {later : List (Bytes × SocketAddr)}
    (queue : own.arrived = datagram :: later) :
    Moved limit own other { own with arrived := later } other
  | takes {inbound : Inbound} {packet : Bytes} {later : List (Bytes × SocketAddr)}
    (bridge : own.tunnel.bridge = .running inbound .receiving)
    (queue : own.arrived = (packet, own.tunnel.address) :: later)
    (filled : packet.take limit ≠ []) :
    Moved limit own other
      { own.wait inbound (.writing (packet.take limit)) with
        arrived := later
        taken := own.taken ++ [packet.take limit] } other
  | writes {inbound : Inbound} {packet : Bytes}
    (bridge : own.tunnel.bridge = .running inbound (.writing packet)) :
    Moved limit own other { own.wait inbound .flushing with stream := own.stream ++ [packet] } other
  | flushes {inbound : Inbound} (bridge : own.tunnel.bridge = .running inbound .flushing) :
    Moved limit own other (own.wait inbound .receiving) other
  | reads {outbound : Outbound} {packet : Bytes} {later : List Bytes}
    (bridge : own.tunnel.bridge = .running .reading outbound)
    (stream : other.stream = packet :: later) :
    Moved limit own other (own.wait (.sending packet) outbound) { other with stream := later }
  | refuses {outbound : Outbound} {packet : Bytes} {later : List Bytes} {error : NetworkError}
    (bridge : own.tunnel.bridge = .running .reading outbound)
    (stream : other.stream = packet :: later) :
    Moved limit own other (own.fail error) { other with stream := later }
  | delivers {outbound : Outbound} {packet : Bytes}
    (bridge : own.tunnel.bridge = .running (.sending packet) outbound) :
    Moved limit own other
      { own.wait .reading outbound with delivered := own.delivered ++ [packet] } other

theorem SameBooks.refl (own : End) : SameBooks own own :=
  ⟨rfl, rfl, rfl, rfl, rfl, rfl, id⟩

theorem moved_fail (error : NetworkError) : Moved limit own other (own.fail error) other := by
  refine .ends ⟨rfl, rfl, rfl, rfl, rfl, rfl, fun _ => ?_⟩ rfl ?_ <;>
    simp [End.isClosed, End.fail, Tunnel.fail, Tunnel.close]

theorem moved_error (error : NetworkError) :
    Moved limit own other (if own.isRunning then own.fail error else own) other := by
  split
  · exact moved_fail error
  · exact .stays (.refl own) rfl

/-- What completing `read_frame` does. -/
theorem moved_read {outbound : Outbound} (bridge : own.tunnel.bridge = .running .reading outbound) :
    Moved limit own other (own.read other outbound).1 (own.read other outbound).2 := by
  unfold End.read
  split
  · rename_i packet later stream
    simp only [End.frame]
    split
    · exact .refuses bridge stream
    · exact .reads bridge stream
  · split
    · exact .stays (.refl own) rfl
    · exact moved_fail _

/-- What a completed call of the half that leads to the endpoint does. -/
theorem moved_completeInbound (result : Except NetworkError Unit) :
    Moved limit own other (own.completeInbound other result).1
      (own.completeInbound other result).2 := by
  cases result with
  | error error => exact moved_error error
  | ok =>
    simp only [End.completeInbound]
    split
    · rename_i bridge
      exact moved_read bridge
    · rename_i bridge
      exact .delivers bridge
    · exact .stays (.refl own) rfl
    · exact .stays (.refl own) rfl

/-- What completing `recv_from` does. -/
theorem moved_receive {inbound : Inbound}
    (bridge : own.tunnel.bridge = .running inbound .receiving) :
    Moved limit own other (End.receive limit own inbound) other := by
  unfold End.receive
  split
  · exact .stays (.refl own) rfl
  · rename_i packet source later queue
    simp only [End.datagram]
    split
    · exact .skips queue
    · rename_i accepted
      push Not at accepted
      obtain ⟨rfl, filled⟩ := accepted
      exact .takes bridge queue (List.length_pos_iff.mp (Nat.pos_of_ne_zero filled))

/-- What a completed call of the half that comes from the endpoint does. -/
theorem moved_completeOutbound (result : Except NetworkError Unit) :
    Moved limit own other (End.completeOutbound limit own result) other := by
  cases result with
  | error error => exact moved_error error
  | ok =>
    simp only [End.completeOutbound]
    split
    · rename_i bridge
      exact moved_receive bridge
    · rename_i bridge
      exact .writes bridge
    · rename_i bridge
      exact .flushes bridge
    · exact .stays (.refl own) rfl
    · exact .stays (.refl own) rfl

@[simp] theorem isRunning_abort (bridge : Bridge) : bridge.abort.isRunning = false := by
  cases bridge <;> rfl

/-- What an input does. -/
theorem moved (input : Input) :
    Moved limit own other (own.move limit other input).1 (own.move limit other input).2 := by
  cases input with
  | emit packet => exact .emits packet
  | arrive packet source =>
    simp only [End.move]
    split
    · exact .stays (.refl own) rfl
    · rename_i accepted
      push Not at accepted
      exact .arrives packet source accepted
  | inbound result => exact moved_completeInbound result
  | outbound result => exact moved_completeOutbound result
  | register => exact .stays ⟨rfl, rfl, rfl, rfl, rfl, rfl, id⟩ rfl
  | lose => exact .stays ⟨rfl, rfl, rfl, rfl, rfl, rfl, fun _ => rfl⟩ rfl
  | shutdown reason =>
    refine .stays ⟨rfl, rfl, rfl, rfl, rfl, rfl, fun _ => ?_⟩ rfl
    simp [End.isClosed, End.move, Tunnel.close]
  | watch =>
    simp only [End.move]
    split
    · rename_i closed
      have closed : own.isClosed := ((Bool.and_eq_true _ _).mp closed).2
      exact .ends ⟨rfl, rfl, rfl, rfl, rfl, rfl, id⟩ (isRunning_abort _) closed
    · exact .stays (.refl own) rfl
  | release =>
    refine .ends ⟨rfl, rfl, rfl, rfl, rfl, rfl, fun _ => ?_⟩ (isRunning_abort _) ?_ <;>
      simp [End.isClosed, End.move, Tunnel.release, Tunnel.close]

/-! ## What is carried -/

/-- Where the packets are that the first end took from its endpoint. -/
structure Carries (own other : End) : Prop where
  delivered : other.delivered <+: own.taken
  ahead : other.isRunning → other.delivered ++ other.unsent ++ own.stream <+: own.taken
  whole : own.isRunning → other.isRunning →
    other.delivered ++ other.unsent ++ own.stream ++ own.unwritten = own.taken

/-- The packets an end has taken are those of its endpoint. -/
structure Genuine (limit : Nat) (own : End) : Prop where
  /-- A datagram from the address of the endpoint was sent by it. -/
  arrived : ∀ datagram ∈ own.arrived, datagram.2 = own.tunnel.address → datagram.1 ∈ own.emitted
  /-- What was taken is what the buffer holds of a datagram of the endpoint. -/
  taken : ∀ packet ∈ own.taken, packet ≠ [] ∧ ∃ sent ∈ own.emitted, packet = sent.take limit

variable {own' other' : End}

/-- Nothing that matters has changed between the ends, except that a bridge may have ended. -/
theorem carries_of_eq (known : Carries own other) (taken : own'.taken = own.taken)
    (stream : own'.stream = own.stream) (delivered : other'.delivered = other.delivered)
    (running : other'.isRunning → other.isRunning ∧ other'.unsent = other.unsent)
    (writing : own'.isRunning → own.isRunning ∧ own'.unwritten = own.unwritten) :
    Carries own' other' := by
  refine ⟨?_, fun runs => ?_, fun runs reads => ?_⟩
  · rw [taken, delivered]
    exact known.delivered
  · obtain ⟨before, unsent⟩ := running runs
    rw [taken, delivered, stream, unsent]
    exact known.ahead before
  · obtain ⟨before, unsent⟩ := running reads
    obtain ⟨earlier, unwritten⟩ := writing runs
    rw [taken, delivered, stream, unsent, unwritten]
    exact known.whole earlier before

theorem held_of_running {inbound : Inbound} {outbound : Outbound}
    (bridge : own.tunnel.bridge = .running inbound outbound) :
    own.isRunning = true ∧ own.unsent = inbound.held ∧ own.unwritten = outbound.held := by
  simp only [End.isRunning, End.unsent, End.unwritten, bridge, Bridge.isRunning, and_self]

theorem held_of_bridge (same : after.tunnel.bridge = own.tunnel.bridge) :
    after.isRunning = own.isRunning ∧ after.unsent = own.unsent ∧
      after.unwritten = own.unwritten := by
  simp only [End.isRunning, End.unsent, End.unwritten, same, and_self]

/-- What happens at the first end keeps what is carried to it. -/
theorem Carries.incoming (known : Carries other own) (change : Moved limit own other own' other') :
    Carries other' own' := by
  cases change with
  | stays same bridge =>
    obtain ⟨running, unsent, -⟩ := held_of_bridge bridge
    exact carries_of_eq known rfl rfl same.delivered (fun runs => ⟨running ▸ runs, unsent⟩)
      (fun runs => ⟨runs, rfl⟩)
  | ends same ended closed =>
    exact carries_of_eq known rfl rfl same.delivered
      (fun runs => absurd runs (Bool.not_eq_true _ ▸ ended)) (fun runs => ⟨runs, rfl⟩)
  | emits | arrives | skips =>
    exact carries_of_eq known rfl rfl rfl (fun runs => ⟨runs, rfl⟩) (fun runs => ⟨runs, rfl⟩)
  | takes bridge | writes bridge | flushes bridge =>
    obtain ⟨running, unsent, -⟩ := held_of_running bridge
    exact carries_of_eq known rfl rfl rfl (fun _ => ⟨running, unsent.symm⟩)
      (fun runs => ⟨runs, rfl⟩)
  | @reads outbound packet later bridge stream =>
    obtain ⟨running, unsent, -⟩ := held_of_running bridge
    have place : own.delivered ++ [packet] ++ later = own.delivered ++ own.unsent ++
      other.stream := by
      simp only [unsent, stream, Inbound.held, List.append_nil, List.append_assoc,
        List.singleton_append]
    refine ⟨known.delivered, fun _ => ?_, fun writes _ => ?_⟩
    · exact place ▸ known.ahead running
    · exact (congrArg (· ++ other.unwritten) place).trans (known.whole writes running)
  | @refuses outbound packet later error bridge stream =>
    exact ⟨known.delivered, fun runs => (by cases runs), fun _ runs => (by cases runs)⟩
  | @delivers outbound packet bridge =>
    obtain ⟨running, unsent, -⟩ := held_of_running bridge
    have place : own.delivered ++ [packet] ++ [] ++ other.stream =
        own.delivered ++ own.unsent ++ other.stream := by
      simp only [unsent, Inbound.held, List.append_nil]
    have ahead : own.delivered ++ [packet] ++ [] ++ other.stream <+: other.taken :=
      place ▸ known.ahead running
    refine ⟨?_, fun _ => ahead, fun writes _ => ?_⟩
    · refine List.IsPrefix.trans ?_ ahead
      rw [List.append_nil]
      exact List.prefix_append _ _
    · exact (congrArg (· ++ other.unwritten) place).trans (known.whole writes running)

/-- What happens at an end keeps what its endpoint vouches for. -/
theorem Genuine.step (known : Genuine limit own) (change : Moved limit own other own' other') :
    Genuine limit own' := by
  cases change with
  | stays same bridge | ends same ended closed =>
    refine ⟨?_, ?_⟩
    · rw [same.arrived, same.address, same.emitted]
      exact known.arrived
    · rw [same.taken, same.emitted]
      exact known.taken
  | emits packet =>
    have grown : own.emitted ⊆ own.emitted ++ [packet] := List.subset_append_left _ _
    refine ⟨fun datagram queued source => grown (known.arrived datagram queued source),
      fun packet taken => ?_⟩
    obtain ⟨filled, sent, emitted, cut⟩ := known.taken packet taken
    exact ⟨filled, sent, grown emitted, cut⟩
  | arrives packet source genuine =>
    refine ⟨fun datagram queued origin => ?_, known.taken⟩
    rcases List.mem_concat_iff.mp queued with earlier | rfl
    · exact known.arrived datagram earlier origin
    · exact genuine origin
  | skips queue =>
    refine ⟨fun datagram queued => known.arrived datagram ?_, known.taken⟩
    exact queue ▸ List.mem_cons_of_mem _ queued
  | takes bridge queue filled =>
    refine ⟨fun datagram queued => known.arrived datagram ?_, fun packet taken => ?_⟩
    · exact queue ▸ List.mem_cons_of_mem _ queued
    · rcases List.mem_concat_iff.mp taken with earlier | rfl
      · exact known.taken packet earlier
      · have emitted := known.arrived (_, own.tunnel.address) (queue ▸ List.mem_cons_self) rfl
        exact ⟨filled, _, emitted, rfl⟩
  | writes | flushes | reads | refuses | delivers => exact ⟨known.arrived, known.taken⟩

/-- What happens at the first end leaves the sockets of the other alone. -/
theorem Genuine.opposite (known : Genuine limit other)
    (change : Moved limit own other own' other') :
    Genuine limit other' := by
  cases change <;> exact ⟨known.arrived, known.taken⟩

/-- The input completes a call of the half that leads to the endpoint. -/
def Input.isInbound : Input → Bool
  | .inbound _ => true
  | _ => false

/-- How often such a call completes at one end. -/
def completions (side : Sides.Side) (inputs : List (Sides.Side × Input)) : Nat :=
  inputs.countP fun input => input.1 == side && input.2.isInbound

/-- After how many completed calls the bridge of the other end has noticed at the latest that the
first one has ended. -/
def remaining (own other : End) : Nat :=
  match other.tunnel.bridge with
  | .running inbound _ => 2 * own.stream.length + 1 + inbound.held.length
  | .stopped _ | .aborted => 0

theorem remaining_running {inbound : Inbound} {outbound : Outbound}
    (bridge : other.tunnel.bridge = .running inbound outbound) :
    remaining own other = 2 * own.stream.length + 1 + inbound.held.length := by
  simp only [remaining, bridge]

theorem remaining_eq_zero (ended : other.isRunning = false) : remaining own other = 0 := by
  unfold remaining
  split
  · rename_i bridge
    exact absurd ((held_of_running bridge).1.symm.trans ended) (by decide)
  · rfl
  · rfl

/-- The books of an end whose bridge has ended: nothing is taken or delivered any more, and the
stream is only read. -/
structure Silent (before own : End) : Prop where
  ended : own.isRunning = false
  taken : own.taken = before.taken
  delivered : own.delivered = before.delivered

variable {other' before : End}

/-- What happens at an end whose bridge has ended leaves the other bridge as much to do. -/
theorem Silent.moves {own' : End} (known : Silent before own)
    (change : Moved limit own other own' other') :
    Silent before own' ∧ remaining own' other' = remaining own other := by
  have stopped {inbound : Inbound} {outbound : Outbound} :
      own.tunnel.bridge ≠ .running inbound outbound := fun bridge =>
    absurd ((held_of_running bridge).1.symm.trans known.ended) (by decide)
  cases change with
  | stays same bridge =>
    refine ⟨⟨(held_of_bridge bridge).1.trans known.ended, same.taken.trans known.taken,
      same.delivered.trans known.delivered⟩, ?_⟩
    simp only [remaining, same.stream]
  | ends same ended closed =>
    refine ⟨⟨ended, same.taken.trans known.taken, same.delivered.trans known.delivered⟩, ?_⟩
    simp only [remaining, same.stream]
  | emits | arrives | skips => exact ⟨⟨known.ended, known.taken, known.delivered⟩, rfl⟩
  | takes bridge | writes bridge | flushes bridge | reads bridge | refuses bridge
  | delivers bridge => exact absurd bridge stopped

/-- What happens at the other end does not give its bridge more to do. -/
theorem Silent.waits {own' : End} (known : Silent before own)
    (change : Moved limit other own other' own') :
    Silent before own' ∧ remaining own' other' ≤ remaining own other := by
  cases change with
  | stays same bridge =>
    refine ⟨known, ?_⟩
    simp only [remaining, bridge, le_refl]
  | ends same ended closed => exact ⟨known, by simp only [remaining_eq_zero ended, Nat.zero_le]⟩
  | emits | arrives | skips => exact ⟨known, le_refl _⟩
  | takes bridge | writes bridge | flushes bridge =>
    refine ⟨known, ?_⟩
    rw [remaining_running bridge]
    exact le_refl _
  | @reads outbound packet later bridge stream =>
    refine ⟨⟨known.ended, known.taken, known.delivered⟩, ?_⟩
    rw [remaining_running bridge, stream]
    simp only [remaining, End.wait, Inbound.held, List.length_cons, List.length_nil]
    omega
  | refuses bridge stream =>
    exact ⟨⟨known.ended, known.taken, known.delivered⟩, Nat.zero_le _⟩
  | delivers bridge =>
    refine ⟨known, ?_⟩
    rw [remaining_running bridge]
    simp only [remaining, End.wait, Inbound.held, List.length_cons, List.length_nil]
    omega

/-- Each call that completes at the other end brings its bridge nearer to the end. -/
theorem remaining_completeInbound (ended : own.isRunning = false)
    (result : Except NetworkError Unit) :
    remaining (other.completeInbound own result).2 (other.completeInbound own result).1 ≤
      remaining own other - 1 := by
  cases bridge : other.tunnel.bridge with
  | stopped | aborted =>
    have still : other.isRunning = false := by
      simp only [End.isRunning, bridge, Bridge.isRunning]
    cases result <;> simp [End.completeInbound, still, bridge, remaining_eq_zero]
  | running inbound outbound =>
    have running := (held_of_running bridge).1
    rw [remaining_running bridge]
    cases result with
    | error error =>
      simp only [End.completeInbound, running, if_true]
      exact Nat.zero_le _
    | ok =>
      cases inbound with
      | sending packet =>
        simp only [End.completeInbound, bridge, remaining, End.wait, Inbound.held,
          List.length_cons, List.length_nil]
        omega
      | reading =>
        simp only [End.completeInbound, bridge, End.read]
        split
        · rename_i packet later stream
          simp only [End.frame, stream, List.length_cons]
          split
          · exact Nat.zero_le _
          · simp only [remaining, End.wait, Inbound.held, List.length_cons, List.length_nil]
            omega
        · rw [if_neg (by rw [ended]; decide)]
          exact Nat.zero_le _

/-- One step after a bridge has ended. -/
theorem Silent.step {both : Sides.Both End} {side : Sides.Side} (limit : Nat)
    (known : Silent before (both.at side)) (mover : Sides.Side) (input : Input) :
    let next := Sides.step (End.move limit) both (mover, input)
    Silent before (next.at side) ∧
      remaining (next.at side) (next.at side.other) ≤
        remaining (both.at side) (both.at side.other) -
          completions side.other [(mover, input)] := by
  intro next
  rcases Sides.eq_or_eq_other side mover with rfl | rfl
  · have uncounted : completions mover.other [(mover, input)] = 0 := by
      cases mover <;> rfl
    have change : Moved limit (both.at mover) (both.at mover.other) _ _ := moved input
    obtain ⟨silent, same⟩ := known.moves change
    simp only [next, Sides.at_step_self, Sides.at_step_other, uncounted, Nat.sub_zero]
    exact ⟨silent, same.le⟩
  · have self : next.at side.other = ((both.at side.other).move limit (both.at side) input).1 := by
      simp only [next, Sides.at_step_self, Sides.other_other]
    have opposite : next.at side = ((both.at side.other).move limit (both.at side) input).2 := by
      cases side <;> rfl
    have change : Moved limit (both.at side.other) (both.at side) _ _ := moved input
    obtain ⟨silent, fewer⟩ := known.waits change
    rw [self, opposite]
    refine ⟨silent, ?_⟩
    cases input with
    | inbound result =>
      have counted : completions side.other [(side.other, .inbound result)] = 1 := by
        cases side <;> rfl
      rw [counted]
      exact remaining_completeInbound known.ended result
    | _ => simpa [completions, Input.isInbound] using fewer

/-- A run after a bridge has ended. -/
theorem Silent.run {both : Sides.Both End} {side : Sides.Side} (limit : Nat)
    (known : Silent before (both.at side)) (inputs : List (Sides.Side × Input)) :
    let last := Run.exec (Sides.step (End.move limit)) both inputs
    Silent before (last.at side) ∧
      remaining (last.at side) (last.at side.other) ≤
        remaining (both.at side) (both.at side.other) - completions side.other inputs := by
  induction inputs using List.reverseRecOn with
  | nil => exact ⟨known, by simp [completions]⟩
  | append_singleton earlier last fewer =>
    obtain ⟨mover, input⟩ := last
    obtain ⟨silent, bound⟩ := fewer
    obtain ⟨still, less⟩ := silent.step limit mover input
    have counted : completions side.other (earlier ++ [(mover, input)]) =
        completions side.other earlier + completions side.other [(mover, input)] :=
      List.countP_append
    simp only [Run.exec_concat]
    exact ⟨still, by omega⟩

/-- The inner connection of a bridge that has ended is closed. -/
def Tidy (own : End) : Prop := own.isRunning = false → own.isClosed

theorem Tidy.step {own' : End} (known : Tidy own) (change : Moved limit own other own' other') :
    Tidy own' := by
  intro ended
  cases change with
  | stays same bridge => exact same.closed (known ((held_of_bridge bridge).1.symm.trans ended))
  | ends same ended closed => exact closed
  | emits | arrives | skips => exact known ended
  | takes | writes | flushes | reads | delivers => cases ended
  | refuses => simp [End.isClosed, End.fail, Tunnel.fail, Tunnel.close]

theorem Tidy.opposite {own' : End} (known : Tidy other)
    (change : Moved limit own other own' other') :
    Tidy other' := by
  cases change <;> exact known

end ArcRelay.Relay
