import Recurrence.Rule.Basic

/-!
# Equality of rules

Two rules are equal when they are built the same way from the same parts; that they hold on the
same dates is not enough. `Rule.same` decides it by walking both rules, and lists of members are
compared in order.
-/

namespace Recurrence.Rule

mutual

def same : Rule → Rule → Bool
  | yearly w, yearly w' => w == w'
  | monthly m, monthly m' => m == m'
  | weekly c, weekly c' => c == c'
  | difference r s, difference r' s' => r.same r' && s.same s'
  | union rs, union rs' => sameMembers rs rs'
  | intersection rs, intersection rs' => sameMembers rs rs'
  | _, _ => false

def sameMembers : List Rule → List Rule → Bool
  | [], [] => true
  | r :: rs, r' :: rs' => r.same r' && sameMembers rs rs'
  | _, _ => false

end

mutual

theorem same_iff (r s : Rule) : r.same s = true ↔ r = s := by
  cases r <;> cases s <;> simp [same, same_iff, sameMembers_iff]

theorem sameMembers_iff (rs ss : List Rule) : sameMembers rs ss = true ↔ rs = ss := by
  match rs, ss with
  | [], [] => simp [sameMembers]
  | [], _ :: _ => simp [sameMembers]
  | _ :: _, [] => simp [sameMembers]
  | r :: rs, s :: ss => simp [sameMembers, same_iff r s, sameMembers_iff rs ss]

end

instance : DecidableEq Rule := fun r s => decidable_of_iff _ (same_iff r s)

end Recurrence.Rule
