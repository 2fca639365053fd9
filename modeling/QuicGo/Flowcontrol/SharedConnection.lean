import Mathlib.Algebra.BigOperators.Group.List.Basic
import QuicGo.Flowcontrol.FlowController
import QuicGo.Lib.Reachable

/-! The receiving side of flow control over a whole connection: the connection's controller and the
controllers of its streams, which all forward to it. Streams join with a new controller, and every
STREAM or RESET_STREAM frame raises the highest received offset of its stream through
`UpdateHighestReceived`. -/
namespace QuicGo.Flowcontrol
open QuicGo.Lib streamFlowController connectionFlowController

/-- The connection's controller and the controllers of its streams, in the order they were
opened. -/
structure receiveSide where
  connection : connectionFlowController
  streams : List streamFlowController

namespace receiveSide

/-- The calls on the controllers: a stream opens with a new controller, or a frame brings an
offset for the stream at an index. -/
inductive Event where
  | openStream (streamID : Nat) (receiveWindow maxReceiveWindow initialSendWindow : UInt64)
  | updateHighestReceived (stream : Nat) (offset : UInt64) (final : Bool)

/-- One call; a call that returns an error ends the run, as it closes the connection. -/
def step (s : receiveSide) : Event → Option receiveSide
  | .openStream streamID receiveWindow maxReceiveWindow initialSendWindow =>
    some { s with streams := s.streams ++
      [NewStreamFlowController streamID receiveWindow maxReceiveWindow initialSendWindow] }
  | .updateHighestReceived i offset final => do
    let c ← s.streams[i]?
    let (c', connection) ← (c.UpdateHighestReceived s.connection offset final).toOption
    pure ⟨connection, s.streams.set i c'⟩

/-- A new connection, before any stream opened. -/
def init (receiveWindow maxReceiveWindow : UInt64) : receiveSide :=
  ⟨NewConnectionFlowController receiveWindow maxReceiveWindow, []⟩

/-- The sum of the streams' highest received offsets. -/
def streamsReceived (s : receiveSide) : UInt64 :=
  (s.streams.map (·.highestReceived)).sum

/-- What every state keeps: the connection counts what its streams count, and every offset lies
within its window. -/
structure Inv (s : receiveSide) : Prop where
  sum : s.connection.highestReceived = s.streamsReceived
  connection_within : s.connection.highestReceived ≤ s.connection.receiveWindow
  within : ∀ c ∈ s.streams, c.highestReceived ≤ c.receiveWindow

theorem Inv.init (receiveWindow maxReceiveWindow : UInt64) :
    Inv (init receiveWindow maxReceiveWindow) where
  sum := rfl
  connection_within := UInt64.zero_le
  within _ hc := absurd hc List.not_mem_nil

theorem step_update {s s' : receiveSide} {i : Nat} {offset : UInt64} {final : Bool}
    (h : s.step (.updateHighestReceived i offset final) = some s') :
    ∃ c c', s.streams[i]? = some c ∧ Updated c s.connection offset final c' s'.connection ∧
      s'.streams = s.streams.set i c' := by
  simp only [step, Option.bind_eq_bind, Option.bind_eq_some_iff, Option.pure_def,
    Option.some.injEq] at h
  obtain ⟨c, hc, ⟨c', connection⟩, hupd, rfl⟩ := h
  exact ⟨c, c', hc, UpdateHighestReceived_updated (Except.toOption_eq_some_iff.mp hupd), rfl⟩

theorem streamsReceived_set {s : receiveSide} {i : Nat} {c : streamFlowController}
    (hc : s.streams[i]? = some c) (c' : streamFlowController) (connection : connectionFlowController) :
    streamsReceived ⟨connection, s.streams.set i c'⟩ =
      s.streamsReceived + (c'.highestReceived - c.highestReceived) := by
  obtain ⟨hi, rfl⟩ := List.getElem?_eq_some_iff.mp hc
  simp only [streamsReceived, List.map_set, List.sum_set', List.length_map, hi, dite_true,
    List.getElem_map, neg_add_eq_sub]

theorem Inv.openStream {s : receiveSide} (hi : Inv s) (streamID : Nat)
    (receiveWindow maxReceiveWindow initialSendWindow : UInt64) :
    Inv { s with streams := s.streams ++
      [NewStreamFlowController streamID receiveWindow maxReceiveWindow initialSendWindow] } where
  sum := by
    rw [hi.sum]
    simp [streamsReceived, NewStreamFlowController, baseFlowController.new]
  connection_within := hi.connection_within
  within c hc := by
    rcases List.mem_append.mp hc with hc | hc
    · exact hi.within c hc
    · rw [List.mem_singleton.mp hc]
      exact UInt64.zero_le

theorem Inv.update {s s' : receiveSide} (hi : Inv s) {i : Nat} {offset : UInt64} {final : Bool}
    (h : s.step (.updateHighestReceived i offset final) = some s') : Inv s' := by
  obtain ⟨c, c', hc, hupd, hstreams⟩ := step_update h
  have hcw : c.highestReceived ≤ c.receiveWindow := hi.within c (List.mem_of_getElem? hc)
  have hc'w : c'.highestReceived ≤ c'.receiveWindow := by
    rw [hupd.receiveWindow]
    by_cases hsame : c'.highestReceived = c.highestReceived
    · rw [hsame]
      exact hcw
    · exact hupd.within hsame
  refine ⟨?_, ?_, fun d hd => ?_⟩
  · have hset := streamsReceived_set hc c' s'.connection
    rw [← hstreams] at hset
    rw [hupd.connection_highestReceived, hi.sum, hset]
  · rw [hupd.connection_receiveWindow]
    by_cases hsame : c'.highestReceived = c.highestReceived
    · rw [hupd.connection_highestReceived, hsame]
      simpa using hi.connection_within
    · exact hupd.connection_within hsame
  · rw [hstreams] at hd
    rcases List.mem_or_eq_of_mem_set hd with hd | rfl
    · exact hi.within d hd
    · exact hc'w

theorem Inv.step {s s' : receiveSide} {e : Event} (hi : Inv s) (h : s.step e = some s') :
    Inv s' := by
  cases e with
  | openStream streamID receiveWindow maxReceiveWindow initialSendWindow =>
    rw [← Option.some.inj h]
    exact hi.openStream streamID receiveWindow maxReceiveWindow initialSendWindow
  | updateHighestReceived i offset final => exact hi.update h

/-! ### Offsets only grow -/

/-- Every stream of `s` is still there in `s'`, with an offset at least as high. -/
def Grown (s s' : receiveSide) : Prop :=
  ∀ (i : Nat) (c : streamFlowController), s.streams[i]? = some c →
    ∃ c' : streamFlowController, s'.streams[i]? = some c' ∧ c.highestReceived ≤ c'.highestReceived

theorem Grown.refl (s : receiveSide) : Grown s s :=
  fun _ c hc => ⟨c, hc, UInt64.le_refl _⟩

theorem Grown.step {s₀ s s' : receiveSide} {e : Event} (hg : Grown s₀ s)
    (h : s.step e = some s') : Grown s₀ s' := by
  intro i c₀ hc₀
  obtain ⟨c, hc, hle⟩ := hg i c₀ hc₀
  cases e with
  | openStream streamID receiveWindow maxReceiveWindow initialSendWindow =>
    rw [← Option.some.inj h]
    exact ⟨c, List.getElem?_append_left (List.getElem?_eq_some_iff.mp hc).1 ▸ hc, hle⟩
  | updateHighestReceived j offset final =>
    obtain ⟨d, d', hd, hupd, hstreams⟩ := step_update h
    rw [hstreams]
    by_cases hij : j = i
    · subst hij
      rw [hc] at hd
      cases hd
      have hj : j < s.streams.length := (List.getElem?_eq_some_iff.mp hc).1
      refine ⟨d', by simp [hj], ?_⟩
      exact UInt64.le_trans hle hupd.mono
    · exact ⟨c, by rw [List.getElem?_set_ne hij]; exact hc, hle⟩

/-! ### Final offsets -/

/-- The stream at `i` has accepted the final offset `F`: it is recorded, and its highest received
offset is `F`. -/
def FinalAt (s : receiveSide) (i : Nat) (F : UInt64) : Prop :=
  ∃ c, s.streams[i]? = some c ∧ c.highestReceived = F ∧ c.receivedFinalOffset = true

/-- The final offsets accepted in the calls `past` are still those of their streams. -/
def FinalsKept (past : List Event) (s : receiveSide) : Prop :=
  ∀ i F, Event.updateHighestReceived i F true ∈ past → FinalAt s i F

theorem FinalsKept.step {past : List Event} {s s' : receiveSide} {e : Event}
    (hk : FinalsKept past s) (h : s.step e = some s') : FinalsKept (past ++ [e]) s' := by
  intro i F hmem
  cases e with
  | openStream streamID receiveWindow maxReceiveWindow initialSendWindow =>
    rw [← Option.some.inj h]
    have hold : Event.updateHighestReceived i F true ∈ past := by simpa using hmem
    obtain ⟨c, hc, hF, hfin⟩ := hk i F hold
    exact ⟨c, List.getElem?_append_left (List.getElem?_eq_some_iff.mp hc).1 ▸ hc, hF, hfin⟩
  | updateHighestReceived j offset final =>
    obtain ⟨d, d', hd, hupd, hstreams⟩ := step_update h
    have hj : j < s.streams.length := (List.getElem?_eq_some_iff.mp hd).1
    rw [List.mem_append, List.mem_singleton] at hmem
    by_cases hij : j = i
    · subst hij
      refine ⟨d', by simp [hstreams, hj], ?_, ?_⟩
      · rcases hmem with hold | hnew
        · obtain ⟨c, hc, hF, hfin⟩ := hk j F hold
          rw [hd] at hc
          cases hc
          rw [hupd.after_final hfin, hF]
        · cases hnew
          exact hupd.final_eq rfl
      · rw [hupd.receivedFinalOffset, Bool.or_eq_true]
        rcases hmem with hold | hnew
        · obtain ⟨c, hc, -, hfin⟩ := hk j F hold
          rw [hd] at hc
          cases hc
          exact .inl hfin
        · cases hnew
          exact .inr rfl
    · rcases hmem with hold | hnew
      · obtain ⟨c, hc, hF, hfin⟩ := hk i F hold
        exact ⟨c, by rw [hstreams, List.getElem?_set_ne hij]; exact hc, hF, hfin⟩
      · cases hnew
        exact absurd rfl hij

/-! ### Whole runs -/

theorem Inv.of_run {receiveWindow maxReceiveWindow : UInt64} {es : List Event} {s : receiveSide}
    (h : run receiveSide.step (fun _ _ => True) (receiveSide.init receiveWindow maxReceiveWindow) es =
      some s) :
    Inv s ∧ FinalsKept es s :=
  run_invariant_of_nil (P := fun past t => Inv t ∧ FinalsKept past t)
    (fun _ _ _ _ hs _ hst => ⟨hs.1.step hst, hs.2.step hst⟩)
    ⟨Inv.init receiveWindow maxReceiveWindow, fun _ _ hm => absurd hm List.not_mem_nil⟩ h

theorem Grown.of_run {s s' : receiveSide} {es : List Event}
    (h : run receiveSide.step (fun _ _ => True) s es = some s') : Grown s s' :=
  run_preserves (P := Grown s) (fun _ _ _ hg _ hst => hg.step hst) (Grown.refl s) h

/-- Over every run from a new connection in which no call returned an error, and any prefix of
it: the connection counts the sum of what its streams count, every offset lies within its
window, no stream's offset went down after the prefix, and a stream that accepted a final offset
`F` is at `F` and refuses every higher offset and every other final one. -/
theorem flowControl_of_run {receiveWindow maxReceiveWindow : UInt64} {es₁ es₂ : List Event}
    {s : receiveSide}
    (h : run step (fun _ _ => True) (init receiveWindow maxReceiveWindow) (es₁ ++ es₂) = some s) :
    s.connection.highestReceived = (s.streams.map (·.highestReceived)).sum ∧
      s.connection.highestReceived ≤ s.connection.receiveWindow ∧
      (∀ c ∈ s.streams, c.highestReceived ≤ c.receiveWindow) ∧
      (∃ s₁, run step (fun _ _ => True) (init receiveWindow maxReceiveWindow) es₁ = some s₁ ∧
        Grown s₁ s) ∧
      ∀ i F, Event.updateHighestReceived i F true ∈ es₁ ++ es₂ →
        ∃ c, s.streams[i]? = some c ∧ c.highestReceived = F ∧
          ∀ offset final, offset > F ∨ (final = true ∧ offset ≠ F) →
            ∃ e, c.UpdateHighestReceived s.connection offset final = .error e := by
  obtain ⟨hi, hk⟩ := Inv.of_run h
  rw [run_append] at h
  obtain ⟨s₁, h₁, h₂⟩ := Option.bind_eq_some_iff.mp h
  refine ⟨hi.sum, hi.connection_within, hi.within, ⟨s₁, h₁, Grown.of_run h₂⟩, fun i F hmem => ?_⟩
  obtain ⟨c, hc, hF, hfin⟩ := hk i F hmem
  refine ⟨c, hc, hF, fun offset final hbad => ?_⟩
  rw [← hF] at hbad
  exact UpdateHighestReceived_error_of_final s.connection hfin hbad

/-- Two streams with windows of 100 bytes on a connection with a window of 150: 30 bytes arrive
on the first, then the final offset 50 of the second, then 20 bytes of the first again. -/
theorem flowControl_two_streams :
    ∃ s, run step (fun _ _ => True) (init 150 150)
        ([.openStream 0 100 100 0, .openStream 4 100 100 0, .updateHighestReceived 0 30 false] ++
          [.updateHighestReceived 1 50 true, .updateHighestReceived 0 20 false]) = some s ∧
      s.connection.highestReceived = (s.streams.map (·.highestReceived)).sum ∧
      s.connection.highestReceived ≤ s.connection.receiveWindow ∧
      (∀ c ∈ s.streams, c.highestReceived ≤ c.receiveWindow) ∧
      (∃ s₁, run step (fun _ _ => True) (init 150 150)
          [.openStream 0 100 100 0, .openStream 4 100 100 0, .updateHighestReceived 0 30 false] =
            some s₁ ∧ Grown s₁ s) ∧
      ∀ i F, Event.updateHighestReceived i F true ∈
          [.openStream 0 100 100 0, .openStream 4 100 100 0, .updateHighestReceived 0 30 false] ++
            [.updateHighestReceived 1 50 true, .updateHighestReceived 0 20 false] →
        ∃ c, s.streams[i]? = some c ∧ c.highestReceived = F ∧
          ∀ offset final, offset > F ∨ (final = true ∧ offset ≠ F) →
            ∃ e, c.UpdateHighestReceived s.connection offset final = .error e := by
  have hrun : run step (fun _ _ => True) (init 150 150)
      ([.openStream 0 100 100 0, .openStream 4 100 100 0, .updateHighestReceived 0 30 false] ++
        [.updateHighestReceived 1 50 true, .updateHighestReceived 0 20 false]) = some _ := rfl
  exact ⟨_, hrun, flowControl_of_run hrun⟩

end receiveSide

end QuicGo.Flowcontrol
