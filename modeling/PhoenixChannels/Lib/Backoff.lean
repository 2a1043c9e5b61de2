import Mathlib.Data.List.GetD
import PhoenixChannels.Lib.Machine

/-!
# Backoff

A machine that waits longer after each failure. It carries the unit of its waits and the number of
the failures, which is counted up to a limit, and starts over with a new unit or after a success.
-/

/-- What is seen of a machine that backs off. -/
structure Backoff (σ ℓ : Type*) where
  /-- The step starts attempts with this unit. -/
  started? : σ → ℓ → Option Nat
  /-- The step begins a wait of this length. -/
  wait? : σ → ℓ → Option Nat
  /-- The last attempt has succeeded. -/
  settled : σ → Bool

namespace Backoff

/-! ## The schedule -/

/-- The length of wait number `k`: the last multiplier is the one of all further waits. -/
def schedule (multipliers : List Nat) (unit k : Nat) : Nat :=
  unit * multipliers.getD (min k (multipliers.length - 1)) 0

variable {multipliers : List Nat} {unit k k' limit : Nat}

theorem schedule_min (h : multipliers.length ≤ limit + 1) :
    schedule multipliers unit (min k limit) = schedule multipliers unit k := by
  have hmin : min (min k limit) (multipliers.length - 1) = min k (multipliers.length - 1) := by omega
  rw [schedule, hmin, schedule]

theorem schedule_mono (h : multipliers.Pairwise (· ≤ ·)) (hk : k ≤ k') :
    schedule multipliers unit k ≤ schedule multipliers unit k' := by
  refine Nat.mul_le_mul_left unit ?_
  rcases Nat.eq_zero_or_pos multipliers.length with hnil | hpos
  · simp [List.length_eq_zero_iff.mp hnil]
  have hlast : ∀ n, min n (multipliers.length - 1) < multipliers.length := fun n => by omega
  rw [List.getD_eq_getElem _ _ (hlast k), List.getD_eq_getElem _ _ (hlast k')]
  rcases Nat.lt_or_ge (min k (multipliers.length - 1)) (min k' (multipliers.length - 1)) with hlt | hge
  · exact List.pairwise_iff_getElem.mp h _ _ (hlast k) (hlast k') hlt
  · have heq : min k (multipliers.length - 1) = min k' (multipliers.length - 1) := by omega
    exact Nat.le_of_eq (by simp only [heq])

theorem schedule_le_last (h : multipliers.Pairwise (· ≤ ·)) :
    schedule multipliers unit k ≤ schedule multipliers unit multipliers.length := by
  have hmin : schedule multipliers unit (min k multipliers.length) = schedule multipliers unit k :=
    schedule_min (Nat.le_succ _)
  rw [← hmin]
  exact schedule_mono h (Nat.min_le_right _ _)

/-! ## Reading a history -/

variable {σ ℓ : Type*} {B : Backoff σ ℓ} {past : List (σ × ℓ)} {s s' : σ} {l : ℓ}

/-- The step starts over. -/
def restarts (B : Backoff σ ℓ) (x : σ × ℓ) : Bool := (B.started? x.1 x.2).isSome || B.settled x.1

/-- The steps since the last one that starts over, which is one of them. -/
def recent (B : Backoff σ ℓ) (past : List (σ × ℓ)) : List (σ × ℓ) :=
  past.foldl (fun recent x => if B.restarts x then [x] else recent ++ [x]) []

/-- The waits since the last step that starts over. -/
def waits (B : Backoff σ ℓ) (past : List (σ × ℓ)) : List Nat :=
  (B.recent past).filterMap fun x => B.wait? x.1 x.2

/-- The unit that the last attempts were started with. -/
def unit? (B : Backoff σ ℓ) (past : List (σ × ℓ)) : Option Nat :=
  (past.filterMap fun x => B.started? x.1 x.2).getLast?

theorem waits_append : B.waits (past ++ [(s, l)]) =
    (if B.restarts (s, l) then [] else B.waits past) ++ (B.wait? s l).toList := by
  rw [waits, recent, List.foldl_append]
  cases hrestarts : B.restarts (s, l) <;> cases hwait : B.wait? s l <;>
    simp [hrestarts, hwait, waits, recent]

theorem unit?_append : B.unit? (past ++ [(s, l)]) = (B.started? s l).or (B.unit? past) := by
  rw [unit?, List.filterMap_append]
  cases hstarted : B.started? s l <;> simp [hstarted, unit?]

/-- The waits since the last step that starts over follow the schedule: none is shorter than the one
before, and none is longer than the longest of the schedule. -/
structure Scheduled (B : Backoff σ ℓ) (multipliers : List Nat) (past : List (σ × ℓ)) : Prop where
  follows : ∀ k d, (B.waits past)[k]? = some d →
    ∃ unit, B.unit? past = some unit ∧ d = schedule multipliers unit k
  increasing : (B.waits past).Pairwise (· ≤ ·)
  bounded : ∀ d ∈ B.waits past, ∃ unit, B.unit? past = some unit ∧
    d ≤ schedule multipliers unit multipliers.length

theorem Scheduled.of_follows (hmono : multipliers.Pairwise (· ≤ ·))
    (h : ∀ k d, (B.waits past)[k]? = some d →
      ∃ unit, B.unit? past = some unit ∧ d = schedule multipliers unit k) :
    B.Scheduled multipliers past where
  follows := h
  increasing := by
    refine List.pairwise_iff_getElem.mpr fun i j hi hj hij => ?_
    obtain ⟨unit, hunit, hd⟩ := h i _ (List.getElem?_eq_getElem hi)
    obtain ⟨unit', hunit', hd'⟩ := h j _ (List.getElem?_eq_getElem hj)
    cases hunit.symm.trans hunit'
    rw [hd, hd']
    exact schedule_mono hmono (Nat.le_of_lt hij)
  bounded d hd := by
    obtain ⟨k, hk, rfl⟩ := List.getElem_of_mem hd
    obtain ⟨unit, hunit, hd⟩ := h k _ (List.getElem?_eq_getElem hk)
    exact ⟨unit, hunit, hd ▸ schedule_le_last hmono⟩

/-! ## Machines that carry a counter -/

/-- The unit and the number of failures that a step begins with. -/
def entered (B : Backoff σ ℓ) (carried : σ → Option (Nat × Nat)) (s : σ) (l : ℓ) :
    Option (Nat × Nat) :=
  ((B.started? s l).map fun unit => (unit, 0)).or (carried s)

/-- What a step does to the counter: it keeps it, a success resets it, or a wait as long as the
schedule has it for the counter begins and counts. -/
inductive Counts (B : Backoff σ ℓ) (multipliers : List Nat) (limit : Nat)
    (carried : σ → Option (Nat × Nat)) (s : σ) (l : ℓ) (s' : σ) : Prop
  | keeps : B.wait? s l = none →
      (∀ unit n, carried s' = some (unit, n) →
        ∃ n', B.entered carried s l = some (unit, n') ∧ n = if B.settled s' then 0 else n') →
      Counts B multipliers limit carried s l s'
  | waits {unit n : Nat} : B.entered carried s l = some (unit, n) →
      B.wait? s l = some (schedule multipliers unit n) → B.settled s' = false →
      (∀ p, carried s' = some p → p = (unit, min (n + 1) limit)) →
      Counts B multipliers limit carried s l s'

variable {carried : σ → Option (Nat × Nat)}

/-- No unit is made up: a bound on those that attempts are started with is kept. -/
theorem Counts.unit_le {bound : Nat} (h : Counts B multipliers limit carried s l s')
    (hstarted : ∀ unit, B.started? s l = some unit → unit ≤ bound)
    (hcarried : ∀ unit n, carried s = some (unit, n) → unit ≤ bound) :
    ∀ unit n, carried s' = some (unit, n) → unit ≤ bound := by
  have hentered : ∀ unit n, B.entered carried s l = some (unit, n) → unit ≤ bound := by
    intro unit n hn
    unfold Backoff.entered at hn
    cases hunit : B.started? s l with
    | some started =>
        rw [hunit] at hn
        cases hn
        exact hstarted _ hunit
    | none =>
        rw [hunit] at hn
        exact hcarried unit n hn
  intro unit n hn
  cases h with
  | keeps _ hkept =>
      obtain ⟨n', hn', _⟩ := hkept unit n hn
      exact hentered unit n' hn'
  | waits hn' _ _ hnext =>
      cases hnext _ hn
      exact hentered _ _ hn'

/-- Other waits may be read off, as long as the step begins the same one. -/
theorem Counts.of_wait {wait? : σ → ℓ → Option Nat} (h : Counts B multipliers limit carried s l s')
    (hwait : wait? s l = B.wait? s l) :
    Counts { B with wait? } multipliers limit carried s l s' := by
  cases h with
  | keeps hnone hkept => exact .keeps (hwait.trans hnone) hkept
  | waits hn hsome hsettled hnext => exact .waits hn (hwait.trans hsome) hsettled hnext

/-- What is carried comes of the history. -/
structure Carries (B : Backoff σ ℓ) (multipliers : List Nat) (limit : Nat)
    (carried : σ → Option (Nat × Nat)) (past : List (σ × ℓ)) (s : σ) : Prop where
  follows : ∀ k d, (B.waits past)[k]? = some d →
    ∃ unit, B.unit? past = some unit ∧ d = schedule multipliers unit k
  carried : ∀ unit n, carried s = some (unit, n) → B.unit? past = some unit ∧
    n = if B.settled s then 0 else min (B.waits past).length limit

/-- A step begins with the number of waits that the history has since the last restart. -/
theorem Carries.entered {n : Nat} (h : Carries B multipliers limit carried past s)
    (hentered : B.entered carried s l = some (unit, n)) :
    (B.started? s l).or (B.unit? past) = some unit ∧
      n = min (if B.restarts (s, l) then [] else B.waits past).length limit := by
  unfold Backoff.entered at hentered
  unfold restarts
  cases hstarted : B.started? s l with
  | some started =>
      rw [hstarted] at hentered
      cases hentered
      simp
  | none =>
      rw [hstarted] at hentered
      obtain ⟨hunit, rfl⟩ := h.carried unit n hentered
      refine ⟨hunit, ?_⟩
      cases B.settled s <;> simp

/-- The waits before a step, as far as the step does not start over, follow the schedule after it. -/
theorem Carries.follows_append (h : Carries B multipliers limit carried past s) (l : ℓ) (k d : Nat)
    (hd : (if B.restarts (s, l) then [] else B.waits past)[k]? = some d) :
    ∃ unit, (B.started? s l).or (B.unit? past) = some unit ∧ d = schedule multipliers unit k := by
  cases hrestarts : B.restarts (s, l) with
  | true =>
      rw [hrestarts] at hd
      cases hd
  | false =>
      rw [hrestarts] at hd
      have hstarted : B.started? s l = none := by
        cases hstarted : B.started? s l with
        | none => rfl
        | some => simp [restarts, hstarted] at hrestarts
      rw [hstarted]
      exact h.follows k d hd

theorem Carries.append (hlimit : multipliers.length ≤ limit + 1)
    (h : Carries B multipliers limit carried past s)
    (hstep : Counts B multipliers limit carried s l s') :
    Carries B multipliers limit carried (past ++ [(s, l)]) s' := by
  have hbefore := h.follows_append l
  have hentered : ∀ {unit n}, B.entered carried s l = some (unit, n) → _ := fun {_ _} => h.entered
  generalize hbase : (if B.restarts (s, l) then [] else B.waits past) = base at hbefore hentered
  cases hstep with
  | keeps hwait hcarried =>
      have hwaits : B.waits (past ++ [(s, l)]) = base := by
        rw [waits_append, hbase, hwait, Option.toList_none, List.append_nil]
      refine ⟨?_, fun unit n hn => ?_⟩
      · rw [hwaits, unit?_append]
        exact hbefore
      · obtain ⟨n', hn', rfl⟩ := hcarried unit n hn
        obtain ⟨hunit, rfl⟩ := hentered hn'
        rw [hwaits, unit?_append]
        exact ⟨hunit, rfl⟩
  | @waits unit n hn hwait hsettled hcarried =>
      obtain ⟨hunit, rfl⟩ := hentered hn
      have hwaits : B.waits (past ++ [(s, l)]) = base ++ [schedule multipliers unit base.length] := by
        rw [waits_append, hbase, hwait, Option.toList_some, schedule_min hlimit]
      refine ⟨fun k d hd => ?_, fun unit' n' hn' => ?_⟩
      · rw [unit?_append]
        rw [hwaits, List.getElem?_append] at hd
        split at hd
        · exact hbefore k d hd
        · rename_i hk
          rw [List.getElem?_singleton] at hd
          split at hd <;> cases hd
          have hlast : base.length = k := by omega
          exact ⟨unit, hunit, by rw [hlast]⟩
      · cases hcarried _ hn'
        rw [unit?_append, hwaits, hsettled, List.length_append, List.length_singleton]
        refine ⟨hunit, ?_⟩
        simp only [Bool.false_eq_true, ↓reduceIte]
        omega

/-- A machine that carries nothing at first, and whose steps all count, waits by the schedule. -/
theorem scheduled_of_run {M : Machine σ ℓ} {ok : σ → ℓ → Prop} {s₀ : σ} {ls : List ℓ}
    (hmono : multipliers.Pairwise (· ≤ ·)) (hlimit : multipliers.length ≤ limit + 1)
    (h₀ : carried s₀ = none)
    (hstep : ∀ s l s', ok s l → M.step s l = some s' → Counts B multipliers limit carried s l s')
    (h : Machine.Run M ok s₀ ls s) : B.Scheduled multipliers (M.steps s₀ ls) := by
  have hcarries : Carries B multipliers limit carried (M.steps s₀ ls) s := by
    refine h.history ⟨?_, ?_⟩ fun _ _ _ _ _ _ ih hok hs => ih.append hlimit (hstep _ _ _ hok hs)
    · intro k d hd
      cases hd
    · intro unit n hn
      rw [h₀] at hn
      cases hn
  exact .of_follows hmono hcarries.follows

end Backoff
