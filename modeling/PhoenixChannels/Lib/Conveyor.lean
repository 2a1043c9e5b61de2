import PhoenixChannels.Lib.Machine

/-!
# Conveyors

Items that are fed into a machine at one end, go through its queues in order, and are taken at the
other end. The feeding end can be cut off with all that it carries, and the taking end can stop.
-/

universe u v w

structure Conveyor (σ : Type u) (ℓ : Type v) (α : Type w) where
  /-- What a step puts in. -/
  feeds : σ → ℓ → List α
  carried : σ → List α
  taken : σ → List α
  /-- Nothing can be put in any more. -/
  cut : σ → Prop
  /-- Nothing is taken any more. -/
  stopped : σ → Prop

namespace Conveyor

open Machine

variable {σ : Type u} {ℓ : Type v} {α : Type w} {C : Conveyor σ ℓ α} {M : Machine σ ℓ}
variable {ok : σ → ℓ → Prop} {s₀ s s' : σ} {l : ℓ} {ls : List ℓ} {past : List (σ × ℓ)}

/-- What was put in, in order. -/
def fed (C : Conveyor σ ℓ α) (past : List (σ × ℓ)) : List α :=
  past.flatMap fun x => C.feeds x.1 x.2

/-- A step moves items along. It loses some only where it cuts the conveyor or stops it. -/
structure Moves (C : Conveyor σ ℓ α) (s : σ) (l : ℓ) (s' : σ) : Prop where
  cut : C.cut s → C.cut s' ∧ C.feeds s l = []
  stopped : C.stopped s → C.stopped s' ∧ C.taken s' = C.taken s
  kept : ¬ C.stopped s' → ¬ C.cut s' →
    C.taken s' ++ C.carried s' = C.taken s ++ C.carried s ++ C.feeds s l
  inOrder : ¬ C.stopped s' → C.taken s' ++ C.carried s' <+: C.taken s ++ C.carried s ++ C.feeds s l
  taken : ¬ C.stopped s → C.taken s' <+: C.taken s ++ C.carried s ++ C.feeds s l

/-- What is taken was put in, in that order, and nothing is left out. -/
structure Conveyed (C : Conveyor σ ℓ α) (past : List (σ × ℓ)) (s : σ) : Prop where
  kept : ¬ C.stopped s → ¬ C.cut s → C.taken s ++ C.carried s = C.fed past
  inOrder : ¬ C.stopped s → C.taken s ++ C.carried s <+: C.fed past
  taken : C.taken s <+: C.fed past

theorem fed_snoc : C.fed (past ++ [(s, l)]) = C.fed past ++ C.feeds s l := by simp [fed]

/-! ## Steps -/

theorem Moves.of_eq (hfeeds : C.feeds s l = []) (hcarried : C.carried s' = C.carried s)
    (htaken : C.taken s' = C.taken s) (hcut : C.cut s → C.cut s')
    (hstopped : C.stopped s → C.stopped s') : C.Moves s l s' where
  cut := fun h => ⟨hcut h, hfeeds⟩
  stopped := fun h => ⟨hstopped h, htaken⟩
  kept := fun _ _ => by rw [hcarried, htaken, hfeeds, List.append_nil]
  inOrder := fun _ => by simp only [hcarried, htaken, hfeeds, List.append_nil, List.prefix_rfl]
  taken := fun _ => by
    rw [htaken, List.append_assoc]
    exact List.prefix_append _ _

/-- Something is put in. -/
theorem Moves.of_feeds (hcarried : C.carried s' = C.carried s ++ C.feeds s l)
    (htaken : C.taken s' = C.taken s) (hcut : ¬ C.cut s)
    (hstopped : C.stopped s → C.stopped s') : C.Moves s l s' where
  cut := fun h => absurd h hcut
  stopped := fun h => ⟨hstopped h, htaken⟩
  kept := fun _ _ => by rw [hcarried, htaken, List.append_assoc]
  inOrder := fun _ => by simp only [hcarried, htaken, List.append_assoc, List.prefix_rfl]
  taken := fun _ => by
    rw [htaken, List.append_assoc]
    exact List.prefix_append _ _

/-- The feeding end is cut off, with the last of what was carried. -/
theorem Moves.of_cut (hfeeds : C.feeds s l = []) (hcarried : C.carried s' <+: C.carried s)
    (htaken : C.taken s' = C.taken s) (hcut : C.cut s')
    (hstopped : C.stopped s → C.stopped s') : C.Moves s l s' where
  cut := fun _ => ⟨hcut, hfeeds⟩
  stopped := fun h => ⟨hstopped h, htaken⟩
  kept := fun _ h => absurd hcut h
  inOrder := fun _ => by
    rw [htaken, hfeeds, List.append_nil]
    exact (List.prefix_append_right_inj _).mpr hcarried
  taken := fun _ => by
    rw [htaken, List.append_assoc]
    exact List.prefix_append _ _

/-- Something is taken. -/
theorem Moves.of_take (hfeeds : C.feeds s l = [])
    (htaken : C.taken s' ++ C.carried s' = C.taken s ++ C.carried s) (hcut : C.cut s → C.cut s')
    (hstopped : ¬ C.stopped s) : C.Moves s l s' where
  cut := fun h => ⟨hcut h, hfeeds⟩
  stopped := fun h => absurd h hstopped
  kept := fun _ _ => by rw [htaken, hfeeds, List.append_nil]
  inOrder := fun _ => by simp only [htaken, hfeeds, List.append_nil, List.prefix_rfl]
  taken := fun _ => by
    rw [hfeeds, List.append_nil, ← htaken]
    exact List.prefix_append _ _

/-- The taking end stops, perhaps with the last that it takes. -/
theorem Moves.of_stop (hfeeds : C.feeds s l = [])
    (htaken : C.taken s' <+: C.taken s ++ C.carried s) (hcut : C.cut s → C.cut s')
    (hrunning : ¬ C.stopped s) (hstopped : C.stopped s') : C.Moves s l s' where
  cut := fun h => ⟨hcut h, hfeeds⟩
  stopped := fun h => absurd h hrunning
  kept := fun h => absurd hstopped h
  inOrder := fun h => absurd hstopped h
  taken := fun _ => by rwa [hfeeds, List.append_nil]

/-- Once the taking end has stopped, what is carried does not matter. -/
theorem Moves.of_stopped (hfeeds : C.cut s → C.feeds s l = []) (htaken : C.taken s' = C.taken s)
    (hcut : C.cut s → C.cut s') (hstopped : C.stopped s) (hstopped' : C.stopped s') :
    C.Moves s l s' where
  cut := fun h => ⟨hcut h, hfeeds h⟩
  stopped := fun _ => ⟨hstopped', htaken⟩
  kept := fun h => absurd hstopped' h
  inOrder := fun h => absurd hstopped' h
  taken := fun h => absurd hstopped h

/-! ## Runs -/

theorem Conveyed.snoc (h : C.Conveyed past s) (hmoves : C.Moves s l s') :
    C.Conveyed (past ++ [(s, l)]) s' := by
  have running : ¬ C.stopped s' → ¬ C.stopped s := fun hs' hs => hs' (hmoves.stopped hs).1
  have grows : ¬ C.stopped s →
      C.taken s ++ C.carried s ++ C.feeds s l <+: C.fed past ++ C.feeds s l := by
    intro hs
    by_cases hcut : C.cut s
    · rw [(hmoves.cut hcut).2, List.append_nil, List.append_nil]
      exact h.inOrder hs
    · simp only [h.kept hs hcut, List.prefix_rfl]
  constructor
  · intro hs' hcut'
    have hcut : ¬ C.cut s := fun hcut => hcut' (hmoves.cut hcut).1
    rw [fed_snoc, hmoves.kept hs' hcut', h.kept (running hs') hcut]
  · intro hs'
    rw [fed_snoc]
    exact (hmoves.inOrder hs').trans (grows (running hs'))
  · rw [fed_snoc]
    by_cases hs : C.stopped s
    · rw [(hmoves.stopped hs).2]
      exact h.taken.trans (List.prefix_append _ _)
    · exact (hmoves.taken hs).trans (grows hs)

/-- A machine whose steps all move the items along conveys them. -/
theorem conveyed_of_run (htaken : C.taken s₀ = []) (hcarried : C.carried s₀ = [])
    (hstep : ∀ ls s l s', Run M ok s₀ ls s → M.step s l = some s' → C.Moves s l s')
    (h : Run M ok s₀ ls s) : C.Conveyed (M.steps s₀ ls) s := by
  refine h.history (I := C.Conveyed) ?_ ?_
  · constructor <;> simp [htaken, hcarried, fed]
  · intro ls past s l s' hrun ih _ hs
    exact ih.snoc (hstep ls s l s' hrun hs)

end Conveyor
