import QuicGo.Ackhandler.ReceivedPacketTracker

/-! When a tracker acknowledges a packet that should instigate an ACK (`maybeQueueAck`,
`GetAckFrame`). The alarm is only ever set to a packet's receive time plus at most `ackSendDelay`,
or moved earlier, so over every run it goes off at most `ackSendDelay` after the latest receive time
(`alarmWithin_of_run`). -/
namespace QuicGo.Ackhandler
open QuicGo.Lib

namespace receivedPacketTracker

/-- The ACK alarm, if set, goes off by `deadline`. -/
def AlarmWithin (deadline : Int) (t : receivedPacketTracker) : Prop :=
  ∀ a, t.ackAlarm = some a → a ≤ deadline

/-- An ACK is queued, or its alarm is set to go off by `deadline`. -/
def AckBy (deadline : Int) (t : receivedPacketTracker) : Prop :=
  t.ackQueued = true ∨ ∃ a, t.ackAlarm = some a ∧ a ≤ deadline

theorem AckBy.queued_or_alarmWithin {d : Int} {t : receivedPacketTracker} (hd : AckBy d t) :
    t.ackQueued = true ∨ AlarmWithin d t := by
  rcases hd with hq | ⟨a, ha, hle⟩
  · exact .inl hq
  · refine .inr fun a' ha' => ?_
    rw [ha, Option.some.injEq] at ha'
    rw [← ha']
    exact hle

/-! ### Deciding when to acknowledge -/

/-- Queueing an ACK or setting an unset alarm to `alarm`, by the deadline of an alarm already
set. -/
theorem queueOrSetAlarm_ackBy {h : receivedPacketTracker} {threshold : Nat} {alarm d : Int}
    (hb : AlarmWithin d h) (ha : alarm ≤ d) : AckBy d (h.queueOrSetAlarm threshold alarm) := by
  unfold queueOrSetAlarm
  split_ifs with hq hn
  · exact .inl rfl
  · exact .inr ⟨alarm, rfl, ha⟩
  · obtain ⟨a, ha'⟩ := Option.ne_none_iff_exists'.mp (by simpa using hn)
    exact .inr ⟨a, ha', hb a ha'⟩

theorem AckBy.queueOrSetAlarm {h : receivedPacketTracker} {threshold : Nat} {alarm d : Int}
    (hd : AckBy d h) : AckBy d (h.queueOrSetAlarm threshold alarm) := by
  unfold receivedPacketTracker.queueOrSetAlarm
  split_ifs with hq hn
  · exact .inl rfl
  · rcases hd with hd | ⟨a, ha, -⟩
    · exact .inl hd
    · simp [ha] at hn
  · exact hd

theorem AckBy.lowerAlarm {h : receivedPacketTracker} {ackTime d : Int}
    (hc : h.ackAlarm.all (· > ackTime) = true) (hd : AckBy d h) :
    AckBy d { h with ackAlarm := some ackTime } := by
  rcases hd with hq | ⟨a, ha, hle⟩
  · exact .inl hq
  · rw [ha] at hc
    have hlt : a > ackTime := by simpa using hc
    exact .inr ⟨ackTime, rfl, by omega⟩

/-- A packet that instigates an ACK leaves one queued or the alarm set by any deadline
`ackSendDelay` after it that an alarm already set keeps, and keeps every deadline kept before. -/
theorem instigateAck_ackBy {h : receivedPacketTracker} {packetNumber : Nat} {rcvTime minRTT d : Int}
    (hb : AlarmWithin d h) (hd : rcvTime + ackSendDelay ≤ d) :
    Except.Post (fun _ => True) (fun h' => AckBy d h' ∧ ∀ d', AckBy d' h → AckBy d' h')
      (h.instigateAck packetNumber rcvTime minRTT) := by
  unfold instigateAck
  dsimp only
  have hq : ∀ h' : receivedPacketTracker, AckBy d h' → (∀ d', AckBy d' h → AckBy d' h') →
      Except.Post (fun _ => True) (fun h'' => AckBy d h'' ∧ ∀ d', AckBy d' h → AckBy d' h'') (do
        if ← h'.hasNewMissingPackets then
          if h'.ackAlarm.all (· > rcvTime + minRTT / 8) then
            pure { h' with ackAlarm := some (rcvTime + minRTT / 8) }
          else pure h'
        else pure h') := by
    intro h' hd' hall
    refine Except.Post.bind (Except.Post.top _) fun _ _ => ?_
    split
    · refine Except.Post.ite (fun hc => Except.Post.of_pure ⟨hd'.lowerAlarm hc, ?_⟩)
        fun _ => Except.Post.of_pure ⟨hd', hall⟩
      exact fun d' h0 => (hall d' h0).lowerAlarm hc
    · exact Except.Post.of_pure ⟨hd', hall⟩
  split
  · have ha : rcvTime + min ackSendDelay (minRTT / 4) ≤ d := by omega
    exact hq _ (queueOrSetAlarm_ackBy hb ha) fun _ h0 => AckBy.queueOrSetAlarm h0
  · exact hq _ (queueOrSetAlarm_ackBy hb hd) fun _ h0 => AckBy.queueOrSetAlarm h0

theorem cancelAlarm_alarmWithin {h : receivedPacketTracker} {d : Int}
    (hd : h.ackQueued = true ∨ AlarmWithin d h) :
    AlarmWithin d (if h.ackQueued = true then { h with ackAlarm := none } else h) := by
  split
  · exact fun _ ha => by cases ha
  · rename_i hq
    exact hd.resolve_left hq

theorem AckBy.cancelAlarm {h : receivedPacketTracker} {d : Int} (hd : AckBy d h) :
    AckBy d (if h.ackQueued = true then { h with ackAlarm := none } else h) := by
  split
  · exact .inl ‹_›
  · exact hd

/-- `maybeQueueAck` keeps the alarm within a deadline `ackSendDelay` after the packet or later,
leaves an ACK due by it when the packet should instigate one, and keeps every deadline kept
before. -/
theorem maybeQueueAck_ackBy {h : receivedPacketTracker} {rcvTime d : Int}
    (hb : AlarmWithin d h) (hd : rcvTime + ackSendDelay ≤ d) (packetNumber : Nat)
    (shouldInstigateAck wasMissing : Bool) (minRTT : Int) :
    Except.Post (fun _ => True)
      (fun h' => AlarmWithin d h' ∧ (shouldInstigateAck = true → AckBy d h') ∧
        ∀ d', AckBy d' h → AckBy d' h')
      (h.maybeQueueAck packetNumber rcvTime shouldInstigateAck wasMissing minRTT) := by
  unfold maybeQueueAck
  dsimp only
  split
  · exact Except.Post.of_pure ⟨hb, fun _ => .inl rfl, fun _ _ => .inl rfl⟩
  have hrest : ∀ Y : receivedPacketTracker, AlarmWithin d Y → (∀ d', AckBy d' h → AckBy d' Y) →
      Except.Post (fun _ => True)
        (fun h' => AlarmWithin d h' ∧ (shouldInstigateAck = true → AckBy d h') ∧
          ∀ d', AckBy d' h → AckBy d' h')
        (if (!Y.ackQueued && shouldInstigateAck) = true then do
            let h' ← Y.instigateAck packetNumber rcvTime minRTT
            pure (if h'.ackQueued = true then { h' with ackAlarm := none } else h')
          else pure (if Y.ackQueued = true then { Y with ackAlarm := none } else Y)) := by
    intro Y hY hall
    refine Except.Post.ite (fun _ => ?_) fun hc => ?_
    · refine Except.Post.bind (instigateAck_ackBy hY hd) fun h' ⟨hd', hall'⟩ => ?_
      refine Except.Post.of_pure ⟨cancelAlarm_alarmWithin hd'.queued_or_alarmWithin,
        fun _ => hd'.cancelAlarm, fun d' h0 => (hall' d' (hall d' h0)).cancelAlarm⟩
    · refine Except.Post.of_pure ⟨cancelAlarm_alarmWithin (.inr hY), fun hs => ?_,
        fun d' h0 => (hall d' h0).cancelAlarm⟩
      have hq : Y.ackQueued = true := by simpa [hs] using hc
      exact AckBy.cancelAlarm (.inl hq)
  refine hrest _ (by split <;> exact hb) fun d' h0 => ?_
  split
  · exact .inl rfl
  · exact h0

theorem ReceivedPacket_ackBy {t : receivedPacketTracker} {rcvTime d : Int}
    (hb : AlarmWithin d t) (hd : rcvTime + ackSendDelay ≤ d) (packetNumber : Nat)
    (shouldInstigateAck : Bool) (minRTT : Int) :
    Except.Post (fun _ => True)
      (fun t' => AlarmWithin d t' ∧
        (t.ignoreBelow ≤ packetNumber → shouldInstigateAck = true → AckBy d t') ∧
        ∀ d', AckBy d' t → AckBy d' t')
      (t.ReceivedPacket packetNumber rcvTime shouldInstigateAck minRTT) := by
  unfold ReceivedPacket
  refine Except.Post.ite (fun hlt => Except.Post.of_pure ⟨hb, fun hle => absurd hle (by omega),
    fun _ h0 => h0⟩) fun _ => ?_
  refine Except.Post.bind (Except.Post.top _) fun isMissing _ => ?_
  have key : ∀ t₁ : receivedPacketTracker, t₁.ackQueued = t.ackQueued →
      t₁.ackAlarm = t.ackAlarm →
      Except.Post (fun _ => True)
        (fun t' => AlarmWithin d t' ∧
          (t.ignoreBelow ≤ packetNumber → shouldInstigateAck = true → AckBy d t') ∧
          ∀ d', AckBy d' t → AckBy d' t')
        (do
          let packetHistory ← t₁.packetHistory.ReceivedPacket packetNumber
          { t₁ with packetHistory }.maybeQueueAck packetNumber rcvTime shouldInstigateAck
            isMissing minRTT) := by
    intro t₁ hq₁ ha₁
    refine Except.Post.bind (Except.Post.top _) fun H _ => ?_
    have hb₁ : AlarmWithin d { t₁ with packetHistory := H } := by
      intro a ha
      exact hb a (ha₁ ▸ ha)
    refine (maybeQueueAck_ackBy hb₁ hd _ _ _ _).mono fun t' ⟨hb', hs', hall'⟩ => ?_
    refine ⟨hb', fun _ => hs', fun d' h0 => hall' d' ?_⟩
    show t₁.ackQueued = true ∨ ∃ a, t₁.ackAlarm = some a ∧ a ≤ d'
    rw [hq₁, ha₁]
    exact h0
  dsimp only
  split
  · exact key _ rfl rfl
  · exact key _ rfl rfl

/-! ### Generating an ACK frame -/

theorem GetAckFrame_alarmWithin {t : receivedPacketTracker} {d : Int} (hb : AlarmWithin d t)
    (now : Int) : AlarmWithin d (t.GetAckFrame now).2 := by
  unfold GetAckFrame
  split
  · exact hb
  · exact fun _ ha => by cases ha

theorem GetAckFrame_snd_of_isNone {t : receivedPacketTracker} {now : Int}
    (hn : (t.GetAckFrame now).1.isNone = true) : (t.GetAckFrame now).2 = t := by
  unfold GetAckFrame at hn ⊢
  split
  · rfl
  · rename_i hc
    simp [hc] at hn

theorem GetAckFrame_isSome_of_ackBy {t : receivedPacketTracker} {d now : Int} (hd : AckBy d t)
    (hnow : d ≤ now) : (t.GetAckFrame now).1.isSome = true := by
  unfold GetAckFrame
  split
  · rename_i hc
    rcases hd with hq | ⟨a, ha, hle⟩
    · simp [hq] at hc
    · have hlt : a > now := (by simpa [ha] using hc : t.ackQueued = false ∧ now < a).2
      omega
  · rfl

/-! ### Whole runs -/

/-- The receive time of a call to `ReceivedPacket`. -/
def Event.rcvTime : Event → Option Int
  | .receivedPacket _ rcvTime _ _ => some rcvTime
  | _ => none

/-- Whether a call returns no ACK frame. -/
def ReturnsNoAck (t : receivedPacketTracker) : Event → Bool
  | .getAckFrame now => (t.GetAckFrame now).1.isNone
  | _ => true

theorem exists_alarmWithin (t : receivedPacketTracker) (x : Int) :
    ∃ d, AlarmWithin d t ∧ x ≤ d := by
  refine ⟨max x (t.ackAlarm.getD x), fun a ha => ?_, le_max_left _ _⟩
  rw [ha, Option.getD_some]
  exact le_max_right _ _

/-- One call keeps the alarm within a deadline `ackSendDelay` after its receive time or
later. -/
theorem step_alarmWithin {t t' : receivedPacketTracker} {e : Event} {d : Int}
    (hb : AlarmWithin d t) (hd : ∀ r, e.rcvTime = some r → r + ackSendDelay ≤ d)
    (h : step t e = some t') : AlarmWithin d t' := by
  cases e with
  | receivedPacket packetNumber rcvTime shouldInstigateAck minRTT =>
    have hpost := ReceivedPacket_ackBy hb (hd rcvTime rfl) packetNumber shouldInstigateAck minRTT
    exact (hpost.of_eq_ok (Except.toOption_eq_some_iff.mp h)).1
  | ignoreBelow p =>
    rw [← Option.some.inj h]
    intro a ha
    rw [IgnoreBelow_ackAlarm] at ha
    exact hb a ha
  | getAckFrame now =>
    rw [← Option.some.inj h]
    exact GetAckFrame_alarmWithin hb now

theorem AckBy.of_step {t t' : receivedPacketTracker} {e : Event} {d : Int} (hd : AckBy d t)
    (hn : ReturnsNoAck t e = true) (h : step t e = some t') : AckBy d t' := by
  cases e with
  | receivedPacket packetNumber rcvTime shouldInstigateAck minRTT =>
    obtain ⟨d₀, hb, hd₀⟩ := exists_alarmWithin t (rcvTime + ackSendDelay)
    have hpost := ReceivedPacket_ackBy hb hd₀ packetNumber shouldInstigateAck minRTT
    exact (hpost.of_eq_ok (Except.toOption_eq_some_iff.mp h)).2.2 d hd
  | ignoreBelow p =>
    rw [← Option.some.inj h]
    unfold AckBy
    rw [IgnoreBelow_ackQueued, IgnoreBelow_ackAlarm]
    exact hd
  | getAckFrame now =>
    rw [← Option.some.inj h, GetAckFrame_snd_of_isNone hn]
    exact hd

/-- Over every run of calls, the alarm goes off at most `ackSendDelay` after the latest receive
time. -/
theorem alarmWithin_of_run {es : List Event} {t : receivedPacketTracker}
    (h : run step (fun _ _ => True) newReceivedPacketTracker es = some t) {d : Int}
    (hd : ∀ r ∈ es.filterMap Event.rcvTime, r + ackSendDelay ≤ d) : AlarmWithin d t := by
  have hrun := run_invariant_of_nil
    (P := fun past t => ∀ d, (∀ r ∈ past.filterMap Event.rcvTime, r + ackSendDelay ≤ d) →
      AlarmWithin d t)
    (fun past s e s' hs _ hst d hd => by
      rw [List.filterMap_append] at hd
      refine step_alarmWithin (hs d fun r hr => hd r (List.mem_append_left _ hr)) ?_ hst
      intro r hr
      exact hd r (List.mem_append_right _ (by simp [hr])))
    (fun _ _ _ ha => by simp [newReceivedPacketTracker] at ha) h
  exact hrun d hd

theorem AckBy.of_run {es : List Event} {t t' : receivedPacketTracker} {d : Int} (hd : AckBy d t)
    (h : run step (fun t e => ReturnsNoAck t e = true) t es = some t') : AckBy d t' :=
  run_preserves (fun _ _ _ hs hn hst => hs.of_step hn hst) hd h

/-- After a packet at or above the bound that should instigate an ACK arrives at `t0`, with the
receive times of all calls not decreasing, and as long as no ACK has been returned since, an ACK
is queued or the alarm goes off by `t0 + ackSendDelay`; so every call of `GetAckFrame` from then
on returns an ACK. -/
theorem GetAckFrame_within_ackSendDelay {es₁ es₂ : List Event} {p : Nat} {t0 minRTT : Int}
    {t₁ t₂ t₃ : receivedPacketTracker}
    (htimes : ((es₁ ++ .receivedPacket p t0 true minRTT :: es₂).filterMap Event.rcvTime).Pairwise
      (· ≤ ·))
    (h₁ : run step (fun _ _ => True) newReceivedPacketTracker es₁ = some t₁)
    (hp : t₁.ignoreBelow ≤ p) (h₂ : step t₁ (.receivedPacket p t0 true minRTT) = some t₂)
    (h₃ : run step (fun t e => ReturnsNoAck t e = true) t₂ es₂ = some t₃) :
    AckBy (t0 + ackSendDelay) t₃ ∧
      ∀ now, t0 + ackSendDelay ≤ now → (t₃.GetAckFrame now).1.isSome = true := by
  have hbefore : ∀ r ∈ es₁.filterMap Event.rcvTime, r + ackSendDelay ≤ t0 + ackSendDelay := by
    rw [List.filterMap_append, List.pairwise_append] at htimes
    intro r hr
    have hle := htimes.2.2 r hr t0 (by simp [Event.rcvTime])
    omega
  have hb₁ := alarmWithin_of_run h₁ hbefore
  have hpost := ReceivedPacket_ackBy hb₁ le_rfl p true minRTT
  have hd₂ := (hpost.of_eq_ok (Except.toOption_eq_some_iff.mp h₂)).2.1 hp rfl
  have hd₃ := AckBy.of_run hd₂ h₃
  exact ⟨hd₃, fun now hnow => GetAckFrame_isSome_of_ackBy hd₃ hnow⟩

/-- The first packet is acknowledged at once; the second, which should instigate an ACK, sets the
alarm, and a call before it goes off returns nothing. -/
theorem GetAckFrame_within_ackSendDelay_second_packet :
    ∃ t₁ t₂ t₃, run step (fun _ _ => True) newReceivedPacketTracker
        [.receivedPacket 0 0 true 0, .getAckFrame 0] = some t₁ ∧
      step t₁ (.receivedPacket 1 10 true 0) = some t₂ ∧
      run step (fun t e => ReturnsNoAck t e = true) t₂ [.ignoreBelow 0, .getAckFrame 5] =
        some t₃ ∧
      AckBy (10 + ackSendDelay) t₃ ∧
      ∀ now, 10 + ackSendDelay ≤ now → (t₃.GetAckFrame now).1.isSome = true :=
  ⟨_, _, _, rfl, rfl, rfl,
    @GetAckFrame_within_ackSendDelay [.receivedPacket 0 0 true 0, .getAckFrame 0]
      [.ignoreBelow 0, .getAckFrame 5] 1 10 0 _ _ _ (by decide) rfl (by decide) rfl rfl⟩

end receivedPacketTracker

end QuicGo.Ackhandler
