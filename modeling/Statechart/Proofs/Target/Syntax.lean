import Statechart.Target.Tree

/-!
Equality of tokens, and trees that are the same syntax.

Two positions in a row, as in `pair.0.1`, are lexed as one number when they are read from text, and
are two tokens when they come from a tree. The trees differ; `Tree.unpair` gives both one form.
-/
set_option autoImplicit false

namespace Statechart.Target

namespace Token

mutual

def same : Token → Token → Bool
  | ident a, ident b => a == b
  | punct a i, punct b k => a == b && i == k
  | literal a, literal b => a == b
  | group d as, group e bs => d == e && sameAll as bs
  | _, _ => false

def sameAll : List Token → List Token → Bool
  | [], [] => true
  | a :: as, b :: bs => same a b && sameAll as bs
  | _, _ => false

end

mutual

theorem same_iff : ∀ a b : Token, same a b = true ↔ a = b
  | ident _, b => by cases b <;> simp [same]
  | punct _ _, b => by cases b <;> simp [same]
  | literal _, b => by cases b <;> simp [same]
  | group d as, b => by
    cases b with
    | group e bs => simp [same, sameAll_iff as bs]
    | _ => simp [same]

theorem sameAll_iff : ∀ as bs : List Token, sameAll as bs = true ↔ as = bs
  | [], bs => by cases bs <;> simp [sameAll]
  | a :: as, bs => by
    cases bs with
    | nil => simp [sameAll]
    | cons b bs => simp [sameAll, same_iff a b, sameAll_iff as bs]

end

instance : DecidableEq Token := fun a b => decidable_of_iff _ (same_iff a b)

end Token

namespace Tree

def rebuild : Kind → List Tree → Tree
  | .fieldPair, [t, dot, first, dot', second] =>
    .node .field [.node .field [t, dot, first], dot', second]
  | k, kids => .node k kids

mutual

def unpair : Tree → Tree
  | leaf ts => leaf ts
  | group d kids => group d (unpairAll kids)
  | list kids => list (unpairAll kids)
  | node k kids => rebuild k (unpairAll kids)

def unpairAll : List Tree → List Tree
  | [] => []
  | t :: ts => unpair t :: unpairAll ts

end

theorem rebuild_cases (k : Kind) (kids : List Tree) :
    rebuild k kids = .node k kids ∨ ∃ t dot first dot' second, k = .fieldPair ∧
      kids = [t, dot, first, dot', second] ∧
      rebuild k kids = .node .field [.node .field [t, dot, first], dot', second] := by
  unfold rebuild
  split
  · exact .inr ⟨_, _, _, _, _, rfl, rfl, rfl⟩
  · exact .inl rfl

theorem exists_unpair_node (k : Kind) (kids : List Tree) :
    ∃ k' kids', (node k kids).unpair = node k' kids' := by
  rw [unpair]
  obtain h | ⟨_, _, _, _, _, -, -, h⟩ := rebuild_cases k (unpairAll kids)
  · exact ⟨_, _, h⟩
  · exact ⟨_, _, h⟩

theorem isEmptyList_unpair (t : Tree) : t.unpair.isEmptyList = t.isEmptyList := by
  cases t with
  | leaf ts => rfl
  | group d kids => rfl
  | list kids => cases kids <;> rfl
  | node k kids =>
    obtain ⟨_, _, h⟩ := exists_unpair_node k kids
    rw [h]
    rfl

def isHidden (k : Kind) : List Tree → Bool
  | [_, members, _] => k == .generics && members.isEmptyList
  | [_, members] => k == .whereClause && members.isEmptyList
  | _ => false

theorem tokens_node (k : Kind) (kids : List Tree) :
    (node k kids).tokens = if isHidden k kids then [] else tokensOf kids := by
  by_cases h : isHidden k kids = true
  · rw [if_pos h]
    unfold isHidden at h
    split at h
    · rename_i members _
      obtain ⟨rfl, hm⟩ : k = .generics ∧ members.isEmptyList = true := by simpa using h
      unfold isEmptyList at hm
      split at hm
      · rw [tokens]
      · cases hm
    · rename_i members
      obtain ⟨rfl, hm⟩ : k = .whereClause ∧ members.isEmptyList = true := by simpa using h
      unfold isEmptyList at hm
      split at hm
      · rw [tokens]
      · cases hm
    · cases h
  · rw [if_neg h, tokens]
    · intro _ _ hk hkids
      simp [isHidden, hk, hkids, isEmptyList] at h
    · intro _ hk hkids
      simp [isHidden, hk, hkids, isEmptyList] at h

theorem isHidden_unpairAll (k : Kind) (kids : List Tree) :
    isHidden k (unpairAll kids) = isHidden k kids := by
  rcases kids with _ | ⟨a, _ | ⟨b, _ | ⟨c, _ | ⟨d, rest⟩⟩⟩⟩ <;>
    simp [unpairAll, isHidden, isEmptyList_unpair]

theorem tokens_rebuild (k : Kind) (kids : List Tree) :
    (rebuild k kids).tokens = (node k kids).tokens := by
  obtain h | ⟨_, _, _, _, _, rfl, rfl, h⟩ := rebuild_cases k kids
  · rw [h]
  · rw [h]
    simp [tokens, tokensOf]

mutual

/-- The form of a pair does not show in the tokens. -/
theorem tokens_unpair : ∀ t : Tree, t.unpair.tokens = t.tokens
  | leaf _ => rfl
  | group _ kids => by rw [unpair, tokens, tokens, tokensOf_unpairAll kids]
  | list kids => by rw [unpair, tokens, tokens, tokensOf_unpairAll kids]
  | node k kids => by
    rw [unpair, tokens_rebuild, tokens_node, tokens_node, isHidden_unpairAll,
      tokensOf_unpairAll kids]

theorem tokensOf_unpairAll : ∀ kids : List Tree, tokensOf (unpairAll kids) = tokensOf kids
  | [] => rfl
  | t :: ts => by rw [unpairAll, tokensOf, tokensOf, tokens_unpair t, tokensOf_unpairAll ts]

end

mutual

def noField : Tree → Bool
  | leaf _ => true
  | group _ kids => noFields kids
  | list kids => noFields kids
  | node k kids => k != .field && noFields kids

def noFields : List Tree → Bool
  | [] => true
  | t :: ts => noField t && noFields ts

end

mutual

theorem unpair_eq_self : ∀ t : Tree, t.unpair.noField = true → t.unpair = t
  | leaf _, _ => rfl
  | group d kids, h => by
    rw [unpair, noField] at h
    rw [unpair, unpairAll_eq_self kids h]
  | list kids, h => by
    rw [unpair, noField] at h
    rw [unpair, unpairAll_eq_self kids h]
  | node k kids, h => by
    rw [unpair] at h ⊢
    obtain hnode | ⟨_, _, _, _, _, -, -, hfield⟩ := rebuild_cases k (unpairAll kids)
    · rw [hnode, noField, Bool.and_eq_true] at h
      rw [hnode, unpairAll_eq_self kids h.2]
    · simp [hfield, noField] at h

theorem unpairAll_eq_self : ∀ kids : List Tree, noFields (unpairAll kids) = true →
    unpairAll kids = kids
  | [], _ => rfl
  | t :: ts, h => by
    rw [unpairAll, noFields, Bool.and_eq_true] at h
    rw [unpairAll, unpair_eq_self t h.1, unpairAll_eq_self ts h.2]

end

theorem eq_of_unpair_eq {t t' : Tree} (h : t.unpair = t') (ht : t'.noField = true) : t = t' := by
  rw [← h] at ht
  rw [← h, unpair_eq_self t ht]

theorem unpair_eq_list {t : Tree} {kids : List Tree} (h : t.unpair = list kids) :
    ∃ kids', t = list kids' ∧ unpairAll kids' = kids := by
  cases t with
  | list kids' => exact ⟨kids', rfl, by simpa [unpair] using h⟩
  | node k kids' =>
    obtain ⟨_, _, hk⟩ := exists_unpair_node k kids'
    simp [hk] at h
  | _ => simp [unpair] at h

theorem unpair_eq_group {t : Tree} {d : Delim} {kids : List Tree} (h : t.unpair = group d kids) :
    ∃ kids', t = group d kids' ∧ unpairAll kids' = kids := by
  cases t with
  | group d' kids' =>
    obtain ⟨rfl, hkids⟩ : d' = d ∧ unpairAll kids' = kids := by simpa [unpair] using h
    exact ⟨kids', rfl, hkids⟩
  | node k kids' =>
    obtain ⟨_, _, hk⟩ := exists_unpair_node k kids'
    simp [hk] at h
  | _ => simp [unpair] at h

theorem unpair_eq_node {t : Tree} {k : Kind} {kids : List Tree} (hk : k ≠ .field)
    (h : t.unpair = node k kids) : ∃ kids', t = node k kids' ∧ unpairAll kids' = kids := by
  cases t with
  | node k' kids' =>
    rw [unpair] at h
    obtain hnode | ⟨_, _, _, _, _, -, -, hfield⟩ := rebuild_cases k' (unpairAll kids')
    · obtain ⟨rfl, hkids⟩ : k' = k ∧ unpairAll kids' = kids := by simpa [hnode] using h
      exact ⟨kids', rfl, hkids⟩
    · rw [hfield] at h
      exact absurd (Tree.node.inj h).1.symm hk
  | _ => simp [unpair] at h

end Tree

end Statechart.Target
