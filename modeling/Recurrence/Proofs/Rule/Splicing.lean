import Recurrence.Proofs.Document.Rules
import Recurrence.Proofs.Rule.Period

/-!
# Spliced combinations

To splice the members of a union is to put in place of each member that is a union its own members,
and so on down, and likewise for intersections. On no date does such a combination depend on more
than the set of rules that splicing leaves. So members may stand in any order and any number of
times, and it makes no difference how combinations of the same kind group them. What is excluded
from a rule one after the other may be excluded as a union.
-/

namespace Recurrence

namespace Rule

mutual

/-- The rules that are left when the combinations of one kind at the top of a rule are opened. -/
def parts : Combination → Rule → List Rule
  | .union, union rs => spliced .union rs
  | .intersection, intersection rs => spliced .intersection rs
  | _, r => [r]

def spliced : Combination → List Rule → List Rule
  | _, [] => []
  | c, r :: rs => parts c r ++ spliced c rs

end

theorem spliced_eq_flatMap (c : Combination) (rs : List Rule) :
    spliced c rs = rs.flatMap (parts c) := by
  induction rs with
  | nil => rfl
  | cons r rs ih => rw [spliced, ih, List.flatMap_cons]

theorem mem_spliced {c : Combination} {rs : List Rule} {x : Rule} :
    x ∈ spliced c rs ↔ ∃ r ∈ rs, x ∈ r.parts c := by
  rw [spliced_eq_flatMap, List.mem_flatMap]

end Rule

namespace Combination

/-- The constructor that refuses to combine no members. -/
def ruleOf : Combination → List Rule → Except Error Rule
  | union => Rule.unionOf
  | intersection => Rule.intersectionOf

/-- The operator on two rules, which has nothing to refuse. -/
def pair : Combination → Rule → Rule → Rule
  | union => Rule.or
  | intersection => Rule.and

/-- Some of the rules include the date, or all of them do. -/
def Holds : Combination → List Rule → Date → Prop
  | union, rs, d => ∃ r ∈ rs, r.includes d = true
  | intersection, rs, d => ∀ r ∈ rs, r.includes d = true

/-- A rule made of members by the constructor and the operator of a combination, in any nesting. The
members are listed from left to right. -/
inductive Groups (c : Combination) : List Rule → Rule → Prop
  | member (r : Rule) : Groups c [r] r
  | pair {rs ss : List Rule} {r s : Rule} (hr : Groups c rs r) (hs : Groups c ss s) :
      Groups c (rs ++ ss) (c.pair r s)
  | combined (gs : List (List Rule × Rule)) {r : Rule} (hgs : ∀ g ∈ gs, Groups c g.1 g.2)
      (hr : c.ruleOf (gs.map Prod.snd) = .ok r) : Groups c (gs.flatMap Prod.fst) r

variable {c : Combination} {r s : Rule} {rs ss : List Rule} {d : Date}

theorem exists_ruleOf (c : Combination) (h : rs ≠ []) : ∃ r, c.ruleOf rs = .ok r := by
  cases c with
  | union => exact ⟨_, Node.unionOf_eq_ok_iff.2 ⟨h, rfl⟩⟩
  | intersection => exact ⟨_, Node.intersectionOf_eq_ok_iff.2 ⟨h, rfl⟩⟩

theorem ruleOf_pair (c : Combination) (r s : Rule) : c.ruleOf [r, s] = .ok (c.pair r s) := by
  cases c <;> rfl

theorem parts_of_ruleOf (h : c.ruleOf rs = .ok r) : r.parts c = Rule.spliced c rs := by
  cases c with
  | union =>
      obtain ⟨-, rfl⟩ := Node.unionOf_eq_ok_iff.1 h
      rw [Rule.parts]
  | intersection =>
      obtain ⟨-, rfl⟩ := Node.intersectionOf_eq_ok_iff.1 h
      rw [Rule.parts]

theorem holds_singleton : c.Holds [r] d ↔ r.includes d = true := by
  cases c <;> simp [Holds]

theorem holds_congr (h : ∀ x, x ∈ rs ↔ x ∈ ss) : c.Holds rs d ↔ c.Holds ss d := by
  cases c <;> simp only [Holds, h]

/-- A combination of combinations is one of all members together. -/
theorem holds_spliced (h : ∀ r ∈ rs, c.Holds (r.parts c) d ↔ r.includes d = true) :
    c.Holds (Rule.spliced c rs) d ↔ c.Holds rs d := by
  cases c with
  | union =>
      simp only [Holds, Rule.mem_spliced] at h ⊢
      constructor
      · rintro ⟨x, ⟨r, hr, hx⟩, hd⟩
        exact ⟨r, hr, (h r hr).1 ⟨x, hx, hd⟩⟩
      · rintro ⟨r, hr, hd⟩
        obtain ⟨x, hx, hxd⟩ := (h r hr).2 hd
        exact ⟨x, ⟨r, hr, hx⟩, hxd⟩
  | intersection =>
      simp only [Holds, Rule.mem_spliced] at h ⊢
      constructor
      · intro hall r hr
        exact (h r hr).1 fun x hx => hall x ⟨r, hr, hx⟩
      · rintro hall x ⟨r, hr, hx⟩
        exact (h r hr).2 (hall r hr) x hx

/-- The parts of a rule decide whether it includes a date. -/
theorem holds_parts (c : Combination) (r : Rule) (d : Date) :
    c.Holds (r.parts c) d ↔ r.includes d = true := by
  induction r using Rule.induction with
  | yearly w => cases c <;> exact holds_singleton
  | monthly m => cases c <;> exact holds_singleton
  | weekly w => cases c <;> exact holds_singleton
  | difference r s _ _ => cases c <;> exact holds_singleton
  | union rs ih =>
      cases c with
      | union =>
          rw [Rule.parts, holds_spliced ih, Rule.includes_union, List.any_eq_true]
          rfl
      | intersection => exact holds_singleton
  | intersection rs ih =>
      cases c with
      | union => exact holds_singleton
      | intersection =>
          rw [Rule.parts, holds_spliced ih, Rule.includes_intersection, List.all_eq_true]
          rfl

theorem includes_eq_of_parts (h : ∀ x, x ∈ r.parts c ↔ x ∈ s.parts c) (d : Date) :
    r.includes d = s.includes d := by
  rw [Bool.eq_iff_iff, ← holds_parts c r, ← holds_parts c s, holds_congr h]

/-- However members are grouped, splicing leaves the same of them. -/
theorem Groups.parts_eq (h : c.Groups rs r) : r.parts c = Rule.spliced c rs := by
  simp only [Rule.spliced_eq_flatMap]
  induction h with
  | member r => rw [List.flatMap_singleton]
  | pair _ _ hr hs =>
      rw [parts_of_ruleOf (ruleOf_pair c _ _), Rule.spliced_eq_flatMap, List.flatMap_append, ← hr,
        ← hs, List.flatMap_cons, List.flatMap_singleton]
  | combined gs _ hr ih =>
      rw [parts_of_ruleOf hr, Rule.spliced_eq_flatMap, List.flatMap_map, List.flatMap_assoc]
      exact List.flatMap_congr ih

end Combination

namespace Rule

theorem includes_except (r s : Rule) (d : Date) :
    (r.except s).includes d = (r.includes d && !s.includes d) := includes_difference r s d

/-- Of what is excluded one after the other, nothing may include the date. -/
theorem includes_foldl_except (r : Rule) (ss : List Rule) (d : Date) :
    (ss.foldl Rule.except r).includes d = (r.includes d && !(union ss).includes d) := by
  induction ss generalizing r with
  | nil => rw [List.foldl_nil, includes_union, List.any_nil, Bool.not_false, Bool.and_true]
  | cons s ss ih =>
      rw [List.foldl_cons, ih, includes_except, includes_union, includes_union, List.any_cons,
        Bool.not_or, Bool.and_assoc]

/-- Combinations of the same kind include the same dates when splicing leaves the same set of rules,
and so do all groupings of one set of members. Exclusions one after the other, in any order, are the
difference from a union. -/
theorem spliced_members_decide :
    (∀ (c : Combination) (rs ss : List Rule), rs ≠ [] → ss ≠ [] →
      ∃ r s, c.ruleOf rs = .ok r ∧ c.ruleOf ss = .ok s ∧
        ((∀ x, x ∈ spliced c rs ↔ x ∈ spliced c ss) → ∀ d, r.includes d = s.includes d)) ∧
    (∀ (c : Combination) (rs ss : List Rule) (r s : Rule), c.Groups rs r → c.Groups ss s →
      (∀ x, x ∈ rs ↔ x ∈ ss) → ∀ d, r.includes d = s.includes d) ∧
    ∀ (r : Rule) (ss : List Rule), ss ≠ [] → ∃ u, unionOf ss = .ok u ∧
      ∀ ts : List Rule, ts.Perm ss →
        ∀ d, (ts.foldl Rule.except r).includes d = (difference r u).includes d := by
  refine ⟨fun c rs ss hrs hss => ?_, fun c rs ss r s hr hs hmem d => ?_, fun r ss hss => ?_⟩
  · obtain ⟨r, hr⟩ := c.exists_ruleOf hrs
    obtain ⟨s, hs⟩ := c.exists_ruleOf hss
    refine ⟨r, s, hr, hs, fun hmem => Combination.includes_eq_of_parts (c := c) ?_⟩
    rwa [Combination.parts_of_ruleOf hr, Combination.parts_of_ruleOf hs]
  · apply Combination.includes_eq_of_parts (c := c)
    intro x
    rw [hr.parts_eq, hs.parts_eq, mem_spliced, mem_spliced]
    simp only [hmem]
  · refine ⟨.union ss, Node.unionOf_eq_ok_iff.2 ⟨hss, rfl⟩, fun ts hts d => ?_⟩
    rw [includes_foldl_except, includes_difference, includes_union, includes_union, hts.any_eq]

/-- Fridays and the last Mondays of the months, nested, grouped and excluded in several ways. -/
theorem spliced_members_decide_nested :
    ∃ r s : Rule, r ≠ s ∧
      (∀ d, (union [r, union [union [s], r]]).includes d = (union [s.or r]).includes d) ∧
      (∀ d, ((r.and s).and r).includes d = (intersection [intersection [s], r]).includes d) ∧
      ∀ d, (((r.or s).except s).except r).includes d =
        (difference (r.or s) (union [r, s])).includes d := by
  let r : Rule := weekly (.every .friday)
  let s : Rule := monthly ⟨.monday, -1⟩
  have hmem : ∀ x, x ∈ [r, s, r] ↔ x ∈ [s, r] := by
    intro x
    simp only [List.mem_cons, List.not_mem_nil, or_false]
    tauto
  obtain ⟨hspliced, hgrouped, hexcluded⟩ := spliced_members_decide
  refine ⟨r, s, by simp [r, s], ?_, ?_, ?_⟩
  · obtain ⟨_, _, hr, hs, hsame⟩ := hspliced .union [r, union [union [s], r]] [s.or r]
      (List.cons_ne_nil _ _) (List.cons_ne_nil _ _)
    obtain rfl := Except.ok.inj hr
    obtain rfl := Except.ok.inj hs
    exact hsame hmem
  · have hleft : Combination.intersection.Groups [r, s, r] ((r.and s).and r) :=
      .pair (.pair (.member r) (.member s)) (.member r)
    have hsingle : Combination.intersection.Groups [s] (intersection [s]) :=
      .combined [([s], s)] (List.forall_mem_singleton.2 (.member s)) rfl
    have hright : Combination.intersection.Groups [s, r] (intersection [intersection [s], r]) :=
      .combined [([s], intersection [s]), ([r], r)]
        (List.forall_mem_cons.2 ⟨hsingle, List.forall_mem_singleton.2 (.member r)⟩) rfl
    exact hgrouped .intersection _ _ _ _ hleft hright hmem
  · obtain ⟨_, hu, hsame⟩ := hexcluded (r.or s) [r, s] (List.cons_ne_nil _ _)
    obtain rfl := Except.ok.inj hu
    exact hsame [s, r] (.swap r s [])

end Rule

end Recurrence
