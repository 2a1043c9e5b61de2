import PhoenixChannels.Lib.NestedMap

/-!
# Loops over finite maps

A loop over a hash map takes the entries in an order that nobody promises. Where each round of it
changes only what belongs to its own key, what the loop does to one key does not depend on the order.
-/

/-- An order in which a hash map may give its entries. -/
structure HashOrder (ε : Type*) where
  arrange : List ε → List ε
  perm : ∀ entries, (arrange entries).Perm entries

/-- The order in which the entries are written. -/
def HashOrder.written {ε : Type*} : HashOrder ε where
  arrange entries := entries
  perm _ := .refl _

namespace Dict

variable {α β σ γ : Type*}

/-! ## The entries with some of the keys -/

def filterKeys (p : α → Bool) (m : Dict α β) : Dict α β where
  entries := m.entries.filter (fun e => p e.1)
  nodupKeys := .sublist List.filter_sublist m.nodupKeys

theorem lookup_filterKeys [DecidableEq α] (p : α → Bool) (m : Dict α β) (a : α) :
    (m.filterKeys p).lookup a = if p a then m.lookup a else none := by
  ext b
  have hmem : (⟨a, b⟩ : Sigma fun _ : α => β) ∈ (m.filterKeys p).entries ↔
      ⟨a, b⟩ ∈ m.entries ∧ p a = true := List.mem_filter
  have hleft : (m.filterKeys p).lookup a = some b ↔ _ := AList.mem_lookup_iff.trans hmem
  have hright : m.lookup a = some b ↔ ⟨a, b⟩ ∈ m.entries := AList.mem_lookup_iff
  cases hp : p a with
  | true => simp only [hleft, hp, ↓reduceIte, hright, and_true]
  | false => simp [hleft, hp]

/-! ## The loop -/

/-- `for (key, value) in map`, with the state that the body changes. -/
def fold (order : HashOrder (Sigma fun _ : α => β)) (body : σ → α → β → σ) (s : σ)
    (m : Dict α β) : σ :=
  (order.arrange m.entries).foldl (fun s e => body s e.1 e.2) s

variable [DecidableEq α] {body : σ → α → β → σ} {view : σ → γ} {change : γ → β → γ} {a : α}

/-- What the loop does to what is seen of one key: the round of the key, if there is one. -/
theorem fold_view (order : HashOrder (Sigma fun _ : α => β)) (s : σ) (m : Dict α β)
    (hother : ∀ s a' b, a' ≠ a → view (body s a' b) = view s)
    (hkey : ∀ s b, view (body s a b) = change (view s) b) :
    view (m.fold order body s) = ((m.lookup a).map (change (view s))).getD (view s) := by
  have hperm := order.perm m.entries
  have hnodup : (order.arrange m.entries).NodupKeys := (List.perm_nodupKeys hperm).mpr m.nodupKeys
  have hlookup : m.lookup a = (order.arrange m.entries).dlookup a :=
    (List.perm_dlookup a hnodup hperm).symm
  rw [hlookup, fold]
  generalize order.arrange m.entries = es at hnodup
  induction es generalizing s with
  | nil => rfl
  | cons e es ih =>
      obtain ⟨a', b⟩ := e
      obtain ⟨hnotin, hrest⟩ := List.nodupKeys_cons.mp hnodup
      rw [List.foldl_cons, ih _ hrest]
      by_cases ha : a' = a
      · subst ha
        rw [List.dlookup_eq_none.mpr hnotin, List.dlookup_cons_eq, hkey]
        rfl
      · rw [List.dlookup_cons_ne _ _ (fun h => ha h.symm), hother _ _ _ ha]

omit [DecidableEq α] in
/-- What the loop writes to a log: each round writes what it makes of its key before the loop. -/
theorem fold_log {ε : Type*} (log : σ → List ε) (views : α → σ → γ) (out : α → γ → β → List ε)
    (order : HashOrder (Sigma fun _ : α => β)) (s : σ) (m : Dict α β)
    (hother : ∀ s a b a', a ≠ a' → views a' (body s a b) = views a' s)
    (hlog : ∀ s a b, log (body s a b) = log s ++ out a (views a s) b) :
    log (m.fold order body s) =
      log s ++ (order.arrange m.entries).flatMap (fun e => out e.1 (views e.1 s) e.2) := by
  have hnodup : (order.arrange m.entries).NodupKeys :=
    (List.perm_nodupKeys (order.perm m.entries)).mpr m.nodupKeys
  rw [fold]
  generalize order.arrange m.entries = es at hnodup
  induction es generalizing s with
  | nil => simp
  | cons e es ih =>
      obtain ⟨hnotin, hrest⟩ := List.nodupKeys_cons.mp hnodup
      rw [List.foldl_cons, ih _ hrest, hlog, List.flatMap_cons, List.append_assoc]
      congr 2
      refine List.flatMap_congr fun e' he' => ?_
      rw [hother]
      rintro heq
      exact hnotin (heq ▸ List.mem_keys_of_mem he')

end Dict
