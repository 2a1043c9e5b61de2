import PhoenixChannels.Socket.Lemmas.Replies

/-!
# Memberships

The channels that are joined on the present connection, read off the trace, are those whose senders
the listener holds.
-/

namespace PhoenixChannels.Socket

open Machine

/-! ## The property -/

def Effect.finishesJoin : Effect → Bool
  | joinedTx _ (.ok _) => true
  | _ => false

def Origin.sends : Origin → Bool
  | call _ | cast _ => true
  | _ => false

namespace Entry

/-- The channel whose join was finished with `Ok`. -/
def joined? (e : Entry) : Option JoinKey :=
  if e.effects.any Effect.finishesJoin then e.reply?.map Reply.key else none

/-- The channel whose `Leave` was processed, so that its `phx_leave` was written. -/
def left? (e : Entry) : Option JoinKey :=
  e.written.findSome? fun
    | (id, .leave _) => some id.key
    | _ => none

/-- The channels for which a `Call` or a `Cast` was written. -/
def senders (e : Entry) : List JoinKey :=
  (e.written.filter (fun x => x.2.sends)).map (fun x => x.1.key)

end Entry

/-- The channels with a finished join on the present connection and no `Leave` since. -/
def members (trace : List Entry) : List JoinKey :=
  trace.foldl (fun members e =>
    if e.broadcastsConnected then []
    else members.filter (fun key => e.left? ≠ some key) ++ e.joined?.toList) []

/-- A `Call` or a `Cast` is written only for a channel that is a member at that moment. -/
def PushesFromMembers (trace : List Entry) : Prop :=
  ∀ before e after, trace = before ++ e :: after → ∀ key ∈ e.senders, key ∈ members before

/-! ## The condition -/

/-- A `Call` or a `Cast` is taken only while the senders of its channel are held. -/
def sendsAsMember (w : World) : Label → Bool
  | .select (.channelSendCommand command _ (.ok ())) =>
      w.task.connection.all (fun c => (c.joinedChannelTxs command.key).isSome)
  | _ => true

/-! ## The invariant -/

variable {w : World} {e : Entry} {trace : List Entry} {before : State} {input : Input}
variable {iteration : Iteration} {now : Instant} {fresh : TxId} {c c' : Connected} {key : JoinKey}

theorem mem_members_append : key ∈ members (trace ++ [e]) ↔
    e.broadcastsConnected = false ∧
      ((key ∈ members trace ∧ e.left? ≠ some key) ∨ e.joined? = some key) := by
  simp only [members, List.foldl_append, List.foldl_cons, List.foldl_nil]
  cases e.broadcastsConnected with
  | true => simp
  | false => simp

/-- The senders and the pending joins of a connection, against what the trace tells. -/
structure MembersMatch (trace : List Entry) (c : Connected) : Prop where
  joins {key : JoinKey} {join : Join} : c.pendingJoin key = some join → join.key = key
  senders {key : JoinKey} : (c.joinedChannelTxs key).isSome = true ↔ key ∈ members trace

theorem MembersMatch.unchanged (h : MembersMatch trace c) (hb : e.broadcastsConnected = false)
    (hleft : e.left? = none) (hjoined : e.joined? = none)
    (hjoins : ∀ key join, c'.pendingJoin key = some join → join.key = key ∨
      c.pendingJoin key = some join)
    (hsenders : ∀ key, c'.joinedChannelTxs key = c.joinedChannelTxs key) :
    MembersMatch (trace ++ [e]) c' where
  joins hj := (hjoins _ _ hj).elim id h.joins
  senders := by
    intro key
    rw [hsenders, h.senders, mem_members_append, hb, hleft, hjoined]
    simp

theorem Entry.joined?_of_no_reply (hr : e.reply? = none) : e.joined? = none := by
  simp [Entry.joined?, hr]

/-- A reply makes its channel a member when it finishes the join of that channel with `Ok`. -/
theorem MembersMatch.reply {r : Reply} (h : MembersMatch trace c) (hr : e.reply? = some r)
    (hb : e.broadcastsConnected = false) (hleft : e.left? = none)
    (he : e.effects = (c.handleReply r fresh).2) :
    MembersMatch (trace ++ [e]) (c.handleReply r fresh).1 where
  joins := by
    intro key join hj
    rw [Connected.handleReply_pendingJoin] at hj
    split at hj
    · cases hj
    · exact h.joins hj
  senders := by
    intro key
    have hjoined : e.joined? =
        if (c.handleReply r fresh).2.any Effect.finishesJoin then some r.key else none := by
      simp [Entry.joined?, hr, he]
    rw [mem_members_append, hb, hleft, hjoined, ← h.senders]
    rcases c.handleReply_cases r fresh with ⟨join, hjoin, hc⟩ | ⟨_, tx, _, hc⟩ | ⟨_, _, hc⟩
    · have hkey : (⟨join.topic, r.joinReference⟩ : JoinKey) = r.key := by
        rw [← h.joins hjoin]
        exact congrArg (JoinKey.mk join.topic) (congrArg JoinKey.joinReference (h.joins hjoin)).symm
      obtain ⟨result, hresult, hstatus⟩ :=
        (c.removeJoin r.key).2.finishJoin_effects r join fresh
      rw [hc, hresult, Connected.finishJoin_joinedChannelTxs, hkey]
      rcases hstatus with ⟨joined, hok, rfl⟩ | ⟨herr, rfl⟩
      · by_cases hk : key = r.key
        · simp [hok, hk, Effect.finishesJoin]
        · simp [hk, Effect.finishesJoin, Ne.symm hk]
      · simp [herr, Effect.finishesJoin]
    · rw [hc]
      simp [Effect.finishesJoin]
    · rw [hc]
      simp

theorem MembersMatch.broadcast {b : Broadcast} (h : MembersMatch trace c) (hr : e.reply? = none)
    (hb : e.broadcastsConnected = false) (hleft : e.left? = none) :
    MembersMatch (trace ++ [e]) (c.handleBroadcast b).1 := by
  obtain ⟨map, hmap⟩ := c.handleBroadcast_cases b
  rw [hmap]
  exact h.unchanged hb hleft (Entry.joined?_of_no_reply hr) (fun _ _ hj => .inr hj) (fun _ => rfl)

theorem MembersMatch.leave {l : Leave} (h : MembersMatch trace c) (hr : e.reply? = none)
    (hb : e.broadcastsConnected = false) (hleft : e.left? = some l.key) :
    MembersMatch (trace ++ [e]) (c.removeJoinedChannelTxs l.key).2 where
  joins hj := by
    rw [Connected.removeJoinedChannelTxs_pendingJoin] at hj
    exact h.joins hj
  senders := by
    intro key
    rw [Connected.removeJoinedChannelTxs_joinedChannelTxs, mem_members_append, hb,
      Entry.joined?_of_no_reply hr, ← h.senders, hleft]
    by_cases hk : key = l.key
    · simp [hk]
    · simp [hk, Ne.symm hk]

theorem MembersMatch.timedOut {key : JoinKey} {timers : List JoinTimeout}
    (h : MembersMatch trace c) (hr : e.reply? = none) (hb : e.broadcastsConnected = false)
    (hleft : e.left? = none) :
    MembersMatch (trace ++ [e]) (Connected.joinTimedOut { c with joinTimeouts := timers } key).1 := by
  apply h.unchanged hb hleft (Entry.joined?_of_no_reply hr)
  · intro key' join hj
    rw [Connected.joinTimedOut_fst, Connected.removeJoin_pendingJoin] at hj
    split at hj
    · cases hj
    · exact .inr hj
  · intro key'
    rw [Connected.joinTimedOut_fst, Connected.removeJoin_joinedChannelTxs]
    rfl

/-- A reply is the only message that makes a member, and only a processed `Leave` ends a
membership while the connection lasts. -/
theorem MembersMatch.next {effects : List Effect} (h : MembersMatch trace c)
    (hiter : ConnectedIteration now fresh c input (.next (.connected c') effects)) :
    MembersMatch (trace ++ [⟨now, .connected c, input, effects⟩]) c' := by
  have hb : Entry.broadcastsConnected ⟨now, .connected c, input, effects⟩ = false :=
    hiter.broadcastsConnected
  have hleft : input.push? = none → Entry.left? ⟨now, .connected c, input, effects⟩ = none := by
    intro hpush
    have hwritten := hiter.written
    simp only [hpush, reduceCtorEq, false_and, exists_false, or_false] at hwritten
    have hnil : Entry.written ⟨now, .connected c, input, effects⟩ = [] := hwritten
    simp [Entry.left?, hnil]
  cases hiter with
  | quiet heartbeat reference hr hq =>
      have hsilent := Input.silent_of_passive hr
      exact h.unchanged hb (hleft (Input.push?_of_silent hsilent))
        (Entry.joined?_of_no_reply (Input.reply?_of_silent hsilent)) (fun _ _ hj => .inr hj)
        (fun _ => rfl)
  | spawned | call | cast =>
      exact h.unchanged hb rfl (Entry.joined?_of_no_reply rfl) (fun _ _ hj => .inr hj)
        (fun _ => rfl)
  | reply r hd => exact h.reply (by simp [Entry.reply?, Input.reply?, hd]) hb (hleft rfl) rfl
  | broadcast b hd => exact h.broadcast (by simp [Entry.reply?, Input.reply?, hd]) hb (hleft rfl)
  | join j uuid =>
      refine h.unchanged hb rfl (Entry.joined?_of_no_reply rfl) (fun key join hj => ?_) fun _ => rfl
      rw [Connected.joined_pendingJoin] at hj
      split at hj
      · cases hj
        exact .inl (Eq.symm ‹_›)
      · exact .inr hj
  | leave l uuid => exact h.leave rfl hb rfl
  | timedOut index timer htimer hdue => exact h.timedOut rfl hb (hleft rfl)
  | lost d hr hstate hq => exact absurd hstate.symm lostState_ne_connected

theorem membersMatch_invariant {ok : World → Label → Prop} : TraceInvariant ok MembersMatch where
  fresh := by
    intro trace e now timeout he
    have hb : e.broadcastsConnected = true := List.any_eq_true.mpr ⟨_, he, rfl⟩
    refine ⟨by simp, ?_⟩
    intro key
    simp [mem_members_append, hb]
  kept := by
    intro w c c' input iteration htask h hok hiter hc'
    cases iteration with
    | next state effects =>
        obtain rfl : state = .connected c' := by simpa [World.outcome] using hc'
        exact h.next hiter
    | push c₁ pushTx push =>
        obtain rfl : c₁ = c' := by simpa [World.outcome, Task.state] using hc'
        cases hiter with
        | push p pushTx hd hp =>
            refine h.unchanged rfl rfl (Entry.joined?_of_no_reply ?_) (fun _ _ hj => .inr hj)
              (fun _ => rfl)
            simp [Entry.reply?, Input.reply?, hd]
    | exit result => cases hc'
    | panic => cases hc'

/-! ## Along a run -/

theorem PushesFromMembers.append (h : PushesFromMembers trace)
    (he : ∀ key ∈ e.senders, key ∈ members trace) : PushesFromMembers (trace ++ [e]) :=
  History.Always.append (P := fun before (e : Entry) => ∀ key ∈ e.senders, key ∈ members before)
    h he

theorem Input.push?_sends {x : PushId × Origin} (h : input.push? = some x)
    (hx : x.2.sends = true) :
    ∃ command uuid, input = .channelSendCommand command uuid (.ok ()) ∧ command.key = x.1.key := by
  unfold Input.push? at h
  split at h <;> cases h <;> cases hx
  · exact ⟨.call _, _, rfl, rfl⟩
  · exact ⟨.cast _, _, rfl, rfl⟩

theorem Entry.senders_cases (h : e.Possible) (hkey : key ∈ e.senders) :
    ∃ command uuid, e.input = .channelSendCommand command uuid (.ok ()) ∧ command.key = key := by
  obtain ⟨x, hx, rfl⟩ := List.mem_map.mp hkey
  obtain ⟨hx, hsends⟩ := List.mem_filter.mp hx
  rcases Entry.written_cases h with hnil | ⟨y, hpush, hy⟩
  · rw [hnil] at hx
    cases hx
  · rw [hy] at hx
    obtain rfl := List.mem_singleton.mp hx
    exact Input.push?_sends hpush hsends

theorem pushesFromMembers_of_run {strategy : Option (Nat → Duration)} {ls : List Label}
    (h : Run (machine strategy) (fun w l => sendsAsMember w l = true) World.init ls w) :
    PushesFromMembers w.trace := by
  refine h.invariant_of_run (I := fun w => PushesFromMembers w.trace) ?_ ?_
  · intro before e after htrace
    simp [World.init] at htrace
  intro ls w label w' hrun ih hok hstep
  cases step_cases hstep with
  | elapse | pushed | publish => exact ih
  | @connected c input iteration htask hfresh hiter =>
      have hmatch := membersMatch_invariant.of_run hrun c (by rw [htask]; rfl)
      refine ih.append fun key hkey => ?_
      obtain ⟨command, uuid, rfl, rfl⟩ := Entry.senders_cases (.connected rfl hiter rfl) hkey
      refine hmatch.senders.mp ?_
      simpa [sendsAsMember, Task.connection, htask] using hok
  | unconnected htask hs hfresh hiter =>
      refine ih.append fun key hkey => ?_
      obtain ⟨x, hx, _⟩ := List.mem_map.mp hkey
      have hmem := (List.mem_filter.mp hx).1
      rw [Entry.written, hiter.written] at hmem
      cases hmem

end PhoenixChannels.Socket
