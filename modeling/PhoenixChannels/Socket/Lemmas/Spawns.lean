import PhoenixChannels.Lib.History
import PhoenixChannels.Socket.Lemmas.Effects

/-!
# Spawned channels

No two channels are spawned under the same join reference.
-/

namespace PhoenixChannels.Socket

open Machine History

variable {w : World} {before : State} {input : Input} {iteration : Iteration}

/-! ## The effects of a spawn -/

/-- The join reference of the channel that an effect spawns. -/
def Effect.spawned? : Effect → Option JoinReference
  | spawned _ key _ _ => some key
  | _ => none

theorem Effect.spawned?_eq_some {effect : Effect} {key : JoinReference}
    (h : effect.spawned? = some key) :
    ∃ spawn channel sent, effect = .spawned spawn key channel sent := by
  cases effect <;> cases h
  exact ⟨_, _, _, rfl⟩

theorem Entry.spawned_input {e : Entry} (h : e.Possible) {spawn : ChannelSpawn}
    {key : JoinReference} {channel : Channel.State} {sent : Bool}
    (hmem : .spawned spawn key channel sent ∈ e.effects) :
    channel = channelState e.before ∧
      ∃ uuid, e.input = .channelSpawn spawn uuid sent ∧ key = JoinReference.new uuid := by
  have hcause := Entry.cause h hmem
  generalize e.before = before, e.input = input at hcause ⊢
  cases hcause with
  | quiet hq => cases hq.quiet
  | spawned => exact ⟨rfl, _, rfl, rfl⟩

theorem LostEffect.ne_spawned {d : Disconnected} {spawn : ChannelSpawn} {key : JoinReference}
    {channel : Channel.State} {sent : Bool} :
    ¬ LostEffect d input (.spawned spawn key channel sent) := by
  intro h
  cases h with
  | quiet hq => cases hq.quiet

theorem Entry.spawned_only {e : Entry} (h : e.Possible) {spawn : ChannelSpawn}
    {key : JoinReference} {channel : Channel.State} {sent : Bool}
    (hmem : .spawned spawn key channel sent ∈ e.effects) :
    channel = channelState e.before ∧ e.effects = [.spawned spawn key channel sent] := by
  obtain ⟨hchannel, uuid, hinput, rfl⟩ := Entry.spawned_input h hmem
  refine ⟨hchannel, ?_⟩
  cases h with
  | connected hbefore hiter he =>
      rw [hinput] at hiter
      rw [he] at hmem ⊢
      subst hchannel
      cases hiter with
      | spawned uuid => rw [hbefore]; rfl
      | quiet _ _ _ hq => nomatch (hq _ hmem).quiet
      | lost d hr hlost hq =>
          simp only [World.outcome, List.mem_append, mem_sendDisconnected] at hmem
          rcases hmem with (hmem | hmem | ⟨_, _, _, hmem⟩ | ⟨_, _, _, _, hmem⟩) | hmem
          · exact absurd (hq _ (List.mem_append_left _ hmem)) LostEffect.ne_spawned
          · cases hmem
          · cases hmem
          · cases hmem
          · exact absurd (hq _ (List.mem_append_right _ hmem)) LostEffect.ne_spawned
      | panic => cases hmem
  | unconnected hs hiter he =>
      rw [hinput] at hiter
      rw [he] at hmem ⊢
      subst hchannel
      cases hiter with
      | spawned uuid => rfl
      | quiet _ hq => nomatch (hq _ hmem).quiet
      | exit => cases hmem
      | panic => cases hmem

theorem Entry.spawned_cases {e : Entry} (h : e.Possible) :
    e.effects.filterMap Effect.spawned? = [] ∨ ∃ uuid, e.input.uuid? = some uuid ∧
      e.effects.filterMap Effect.spawned? = [JoinReference.new uuid] := by
  rcases (e.effects.filterMap Effect.spawned?).eq_nil_or_concat with hnil | ⟨_, key, hkeys⟩
  · exact .inl hnil
  · have hkey : key ∈ e.effects.filterMap Effect.spawned? := by simp [hkeys]
    obtain ⟨effect, heffect, hspawned⟩ := List.mem_filterMap.mp hkey
    obtain ⟨spawn, channel, sent, rfl⟩ := Effect.spawned?_eq_some hspawned
    obtain ⟨_, uuid, hinput, rfl⟩ := Entry.spawned_input h heffect
    refine .inr ⟨uuid, by simp [hinput, Input.uuid?], ?_⟩
    rw [(Entry.spawned_only h heffect).2]
    rfl

/-! ## Along a run -/

/-- The join references of the spawned channels are drawn ones, each drawn once. -/
def SpawnsDrawn (w : World) : Prop :=
  Drawn JoinReference.new (w.effects.filterMap Effect.spawned?) w.uuids

theorem spawnsDrawn_of_run {strategy : Option (Nat → Duration)} {ok : World → Label → Prop}
    {ls : List Label} (h : Run (machine strategy) ok World.init ls w) : SpawnsDrawn w := by
  refine h.invariant (show SpawnsDrawn World.init from Drawn.nil) ?_
  intro w label w' ih _ hstep
  have hkey : ∀ u v : Uuid, JoinReference.new u = JoinReference.new v → u = v := by
    intro u v huv
    exact Reference.new_injective (congrArg JoinReference.reference huv)
  have recorded : ∀ {before input iteration}, w.uuidFresh input = true →
      Entry.Possible ⟨w.now, before, input, (World.outcome iteration).2⟩ →
      SpawnsDrawn (w.record before input iteration) := by
    intro before input iteration hfresh hpossible
    rw [SpawnsDrawn, record_effects, List.filterMap_append, record_uuids]
    exact ih.append hkey (uuidFresh_iff.mp hfresh) (Entry.spawned_cases hpossible)
  cases step_cases hstep with
  | elapse | pushed | publish => exact ih
  | connected htask hfresh hiter => exact recorded hfresh (.connected rfl hiter rfl)
  | unconnected htask hs hfresh hiter => exact recorded hfresh (.unconnected hs hiter rfl)

theorem spawned_once {strategy : Option (Nat → Duration)} {ok : World → Label → Prop}
    {ls : List Label} (h : Run (machine strategy) ok World.init ls w) {i j : Nat} {e e' : Effect}
    {key : JoinReference} (hi : w.effects[i]? = some e) (hj : w.effects[j]? = some e')
    (he : e.spawned? = some key) (he' : e'.spawned? = some key) : i = j := by
  exact index_eq_of_nodup (spawnsDrawn_of_run h).once hi hj he he'

end PhoenixChannels.Socket
