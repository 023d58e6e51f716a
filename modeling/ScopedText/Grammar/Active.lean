import ScopedText.Grammar.Basic

/-!
# Active patterns

Inside of a rule, the patterns of its list are active. A container in the list stands for the
entries of its own list, in its place, the first time it is met; later it stands for nothing, so a
list that includes itself comes to an end.
-/

namespace ScopedText.Grammar

def unvisited (g : Grammar) (visited : List RuleId) : Nat :=
  (List.range g.rules.size).countP fun id => !visited.contains id

theorem unvisited_cons_lt (g : Grammar) {visited : List RuleId} {id : RuleId}
    (hid : id < g.rules.size) (h : visited.contains id = false) :
    g.unvisited (id :: visited) < g.unvisited visited := by
  unfold unvisited
  have hmem : id ∈ List.range g.rules.size := List.mem_range.mpr hid
  obtain ⟨before, after, hsplit⟩ := List.append_of_mem hmem
  rw [hsplit]
  simp only [List.countP_append, List.countP_cons, List.contains_cons, beq_self_eq_true,
    Bool.true_or, Bool.not_true, h, Bool.not_false]
  have mono (l : List RuleId) :
      l.countP (fun x => !(x == id || visited.contains x))
        ≤ l.countP fun x => !visited.contains x :=
    List.countP_mono_left fun x _ hx => by
      simp only [Bool.not_eq_true', Bool.or_eq_false_iff] at hx ⊢
      exact hx.2
  have := mono before
  have := mono after
  simp only [Bool.false_eq_true, if_false, if_true]
  omega

/-- The patterns of the entries, in order, with the containers in `visited` left out. -/
def activeFrom (g : Grammar) (visited : List RuleId) (entries : List Entry) :
    List (RuleId × String) :=
  match entries with
  | [] => []
  | e :: es => match g.target? e with
    | none => g.activeFrom visited es
    | some id => match _h : g.rules[id]? with
      | some (.span r) => (id, g.patternText r.pattern) :: g.activeFrom visited es
      | some (.region r) => (id, g.patternText r.opening) :: g.activeFrom visited es
      | some (.container r) =>
        if _hv : visited.contains id then g.activeFrom visited es
        else g.activeFrom (id :: visited) (r.entries ++ es)
      | _ => g.activeFrom visited es
termination_by (g.unvisited visited, entries.length)
decreasing_by
  all_goals first
    | exact Prod.Lex.right _ (Nat.lt_succ_self _)
    | exact Prod.Lex.left _ _
        (g.unvisited_cons_lt (Array.getElem?_eq_some_iff.mp _h).1 (by simpa using _hv))

theorem activeFrom_cons (g : Grammar) (visited : List RuleId) (e : Entry) (es : List Entry) :
    g.activeFrom visited (e :: es) = match g.target? e with
      | none => g.activeFrom visited es
      | some id => match g.rules[id]? with
        | some (.span r) => (id, g.patternText r.pattern) :: g.activeFrom visited es
        | some (.region r) => (id, g.patternText r.opening) :: g.activeFrom visited es
        | some (.container r) =>
          if visited.contains id then g.activeFrom visited es
          else g.activeFrom (id :: visited) (r.entries ++ es)
        | _ => g.activeFrom visited es := by
  rw [activeFrom]
  cases g.target? e with
  | none => rfl
  | some id =>
    dsimp only
    split <;> simp_all

/-- The patterns that are active inside of a rule, each with the rule it belongs to. -/
def active (g : Grammar) (id : RuleId) : List (RuleId × String) :=
  g.activeFrom [id] (g.entries id)

end ScopedText.Grammar
