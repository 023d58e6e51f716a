import ScopedText.Proofs.Outcome
import ScopedText.Regex.Basic

/-!
# What an item of a pattern does

Reading an item of a pattern does one of few things to a reading (`Action`), and which one only
depends on the options, the groups and the names at that point: two readings that agree on these
read alike (`alike_next`). What an action keeps is therefore kept by the reading of a pattern
(`invariant_readAll`).
-/

namespace ScopedText.Regex

inductive Action
  /-- Nothing: a comment or a blank that does not count. -/
  | keep
  | push (e : Expr)
  /-- Refers to a group by its number. -/
  | refer (n : Nat)
  | branch
  | quantify (low : Nat) (high : Option Nat) (greedy possessive : Bool)
  /-- Opens a group that does not capture. -/
  | group (o : Opening) (inside : Options)
  | capture
  | named (name : String)
  | close

def Action.run (r : Reading) : Action → Except Error Reading
  | keep => .ok r
  | push e => .ok (r.push e)
  | refer n => .ok { r.push (.backref [n] r.options.ignoreCase) with numbered := true }
  | branch => .ok { r with level := r.level.nextBranch }
  | quantify low high greedy possessive => r.quantify low high greedy possessive
  | group o inside => .ok (r.openGroup o inside)
  | capture => .ok r.openCapture
  | named name => .ok (r.openNamed name)
  | close => r.closeGroup

/-- Every group that the expression refers to satisfies `p`. -/
def Expr.RefersTo (p : Nat → Prop) : Expr → Prop
  | empty | one _ | anchor _ => True
  | backref ns _ => ∀ n ∈ ns, p n
  | group _ e | repeated _ _ _ e | atomic e | ahead _ e | behind _ e => e.RefersTo p
  | seq e f | alt e f => e.RefersTo p ∧ f.RefersTo p

/-- An item that is added refers to groups by their names and has no groups of its own; `group` does
not open a group that captures. -/
def Action.Fair (names : List (String × Nat)) : Action → Prop
  | push e => e.RefersTo (· ∈ names.map (·.2)) ∧ e.groupCount = 0
  | group o _ => ∀ n, o ≠ .capture n
  | _ => True

namespace Reading

/-- The readings agree on what decides how an item is read. -/
structure Beside (r r' : Reading) : Prop where
  options : r'.options = r.options
  groups : r'.groups = r.groups
  names : r'.names = r.names

/-- Both readings refuse an item, or it does the same to both. -/
inductive Alike (r r' : Reading) :
    Except Error (Reading × List Char) → Except Error (Reading × List Char) → Prop
  | refused (e : Error) : Alike r r' (.error e) (.error e)
  | acts (a : Action) (fair : a.Fair r.names) (rest : List Char) :
    Alike r r' ((a.run r).map (·, rest)) ((a.run r').map (·, rest))

section Alike

variable {r r' : Reading} (h : r.Beside r')

theorem alike_bind {α : Type} (x : Except Error α)
    {f f' : α → Except Error (Reading × List Char)} (hf : ∀ a, Alike r r' (f a) (f' a)) :
    Alike r r' (x >>= f) (x >>= f') := by
  cases x with
  | error e => exact .refused e
  | ok a => exact hf a

theorem alike_one (s : CharSet) (rest : List Char) :
    Alike r r' (.ok (r.push (.one s), rest)) (.ok (r'.push (.one s), rest)) :=
  .acts (.push (.one s)) ⟨trivial, rfl⟩ rest

theorem alike_anchor (a : Anchor) (rest : List Char) :
    Alike r r' (.ok (r.push (.anchor a), rest)) (.ok (r'.push (.anchor a), rest)) :=
  .acts (.push (.anchor a)) ⟨trivial, rfl⟩ rest

theorem alike_pushSuffixed (low : Nat) (high : Option Nat) (cs : List Char) :
    Alike r r' (r.pushSuffixed low high cs) (r'.pushSuffixed low high cs) := by
  unfold pushSuffixed
  split
  · exact .acts (.quantify low high false false) trivial _
  · exact .acts (.quantify low high true true) trivial _
  · exact .acts (.quantify low high true false) trivial _

theorem alike_pushNumbered (n : Nat) (rest : List Char) :
    Alike r r' (do return (← r.pushNumbered n, rest)) (do return (← r'.pushNumbered n, rest)) := by
  unfold pushNumbered
  split
  · exact .refused _
  · exact .acts (.refer n) trivial rest

theorem alike_pushNamedGroup (mark : Char) (cs : List Char) :
    Alike r r' (r.pushNamedGroup mark cs) (r'.pushNamedGroup mark cs) := by
  unfold pushNamedGroup
  refine alike_bind _ fun answer => ?_
  split
  · exact .acts (.named _) trivial _
  · exact .refused _

include h

theorem alike_pushChar (c : Char) (rest : List Char) :
    Alike r r' (.ok (r.pushChar c, rest)) (.ok (r'.pushChar c, rest)) := by
  unfold pushChar
  rw [h.options]
  exact alike_one _ _

theorem alike_pushBraced (cs : List Char) : Alike r r' (r.pushBraced cs) (r'.pushBraced cs) := by
  unfold pushBraced
  refine alike_bind _ fun bounds => ?_
  split
  · exact alike_pushChar h _ _
  · exact .acts (.quantify _ _ true false) trivial _
  · split
    · exact .acts (.quantify _ _ true true) trivial _
    · split
      · exact .acts (.quantify _ _ false false) trivial _
      · exact .acts (.quantify _ _ true false) trivial _
  · split
    · exact .acts (.quantify _ _ false false) trivial _
    · exact .acts (.quantify _ _ true false) trivial _

theorem alike_pushNamed (name : Name) (rest : List Char) :
    Alike r r' (do return (← r.pushNamed name, rest)) (do return (← r'.pushNamed name, rest)) := by
  unfold pushNamed
  split
  · rw [h.names, h.options]
    split
    · exact .refused _
    · rename_i groups _ hgroups
      refine .acts (.push _) ⟨?_, rfl⟩ rest
      intro n hn
      obtain ⟨group, hgroup, rfl⟩ := List.mem_map.mp (List.mem_reverse.mp hn)
      exact List.mem_map_of_mem (List.mem_filter.mp hgroup).1
  · exact alike_pushNumbered _ rest
  · rw [h.groups]
    split
    · exact .refused _
    · exact alike_pushNumbered _ rest
  · rw [h.groups]
    split
    · exact .refused _
    · exact alike_pushNumbered _ rest

theorem alike_pushEscape (cs : List Char) : Alike r r' (r.pushEscape cs) (r'.pushEscape cs) := by
  unfold pushEscape
  rw [h.groups]
  split
  · exact .refused _
  · dsimp only
    split
    case h_16 =>
      -- what is no reference to a group is read by `Escape.read`, in two places
      repeat' split
      case isTrue.isTrue => exact alike_pushNumbered _ _
      case isTrue.isFalse.isTrue => exact alike_pushChar h _ _
      all_goals
        refine alike_bind _ fun escape => ?_
        split
        · exact alike_pushChar h _ _
        · exact alike_one _ _
        · exact alike_bind _ fun _ => alike_pushChar h _ _
    case h_14 =>
      split
      · exact alike_bind _ fun _ => alike_pushNamed h _ _
      · exact alike_bind _ fun _ => alike_pushNamed h _ _
      · exact alike_pushChar h _ _
    case h_15 =>
      split
      · exact .refused _
      · exact .refused _
      · exact alike_pushChar h _ _
    case h_7 => exact .acts (.push lineBreak) ⟨⟨⟨trivial, trivial⟩, trivial⟩, rfl⟩ _
    case h_8 | h_9 => exact alike_one _ _
    case h_10 | h_11 | h_12 | h_13 => exact .refused _
    all_goals exact alike_anchor _ _

theorem alike_pushParenthesis (cs : List Char) :
    Alike r r' (r.pushParenthesis cs) (r'.pushParenthesis cs) := by
  unfold pushParenthesis
  rw [h.options]
  split
  · split
    · exact .refused _
    · split
      case h_1 => exact alike_bind _ fun rest => .acts .keep trivial rest
      case h_2 | h_3 | h_4 | h_5 => exact .acts (.group _ _) (by intro n; simp) _
      case h_6 =>
        split
        · exact .refused _
        · exact .acts (.group _ _) (by intro n; simp) _
        · exact .acts (.group _ _) (by intro n; simp) _
        · exact alike_pushNamedGroup _ _
      case h_7 => exact alike_pushNamedGroup _ _
      case h_8 | h_9 | h_10 | h_11 => exact .refused _
      case h_12 =>
        refine alike_bind _ fun answer => ?_
        split
        · exact .acts (.group .plain _) (by intro n; simp) _
        · exact .acts (.group .inlineOption _) (by intro n; simp) _
  · exact .refused _
  · exact .acts .capture trivial _

/-- Both readings refuse the next item, or it does the same to both. -/
theorem alike_next (cs : List Char) : Alike r r' (r.next cs) (r'.next cs) := by
  unfold next
  split
  · exact .acts .keep trivial _
  · split
    case h_1 => exact alike_pushEscape h _
    case h_2 =>
      rw [h.options]
      exact alike_one _ _
    case h_3 | h_4 => exact alike_anchor _ _
    case h_5 =>
      rw [h.options]
      exact alike_bind _ fun _ => alike_one _ _
    case h_6 => exact alike_pushParenthesis h _
    case h_7 => exact .acts .close trivial _
    case h_8 => exact .acts .branch trivial _
    case h_9 | h_10 | h_11 => exact alike_pushSuffixed _ _ _
    case h_12 => exact alike_pushBraced h _
    case h_13 =>
      rw [h.options]
      split
      · exact .acts .keep trivial _
      · split
        · exact .acts .keep trivial _
        · exact alike_pushChar h _ _

end Alike

variable {r r' r₁ : Reading} {cs rest : List Char}

theorem beside_self (r : Reading) : r.Beside r := ⟨rfl, rfl, rfl⟩

/-- What a reading accepts is an action, and so it is for the other reading. -/
theorem Alike.exists_action {x x' : Except Error (Reading × List Char)} (halike : Alike r r' x x')
    (h : x = .ok (r₁, rest)) :
    ∃ a : Action, a.Fair r.names ∧ a.run r = .ok r₁ ∧ x' = (a.run r').map (·, rest) := by
  cases halike with
  | refused e => cases h
  | acts a fair rest =>
    cases hrun : a.run r with
    | error e =>
      rw [hrun] at h
      cases h
    | ok r₂ =>
      rw [hrun] at h
      cases h
      exact ⟨a, fair, hrun, rfl⟩

theorem exists_action_of_next (h : r.next cs = .ok (r₁, rest)) :
    ∃ a : Action, a.Fair r.names ∧ a.run r = .ok r₁ := by
  obtain ⟨a, fair, hrun, _⟩ := (alike_next (beside_self r) cs).exists_action h
  exact ⟨a, fair, hrun⟩

theorem readAll_of_next (h : r.next cs = .ok (r₁, rest)) (hlt : rest.length < cs.length) :
    readAll r cs = readAll r₁ rest := by
  have hne : cs.isEmpty = false := by
    cases cs with
    | nil => cases Nat.not_lt_zero _ hlt
    | cons c cs => rfl
  rw [readAll, hne, h]
  simp only [Bool.false_eq_true, if_false, bind, Except.bind, if_pos hlt]

/-- An item that is refused ends the reading. -/
theorem readAll_of_refused {e : Error} (hempty : ¬ cs.isEmpty = true) (h : r.next cs = .error e) :
    readAll r cs = .error e := by
  rw [readAll, if_neg hempty, h]
  rfl

/-- What every action keeps holds of what has been read in the end. -/
theorem invariant_readAll {I : Reading → Prop}
    (step : ∀ (a : Action) (r r₁ : Reading), a.Fair r.names → a.run r = .ok r₁ → I r → I r₁)
    (hr : I r) (h : readAll r cs = .ok r₁) : I r₁ := by
  fun_induction readAll r cs with
  | case1 r cs =>
    cases h
    exact hr
  | case2 r cs _ ih =>
    obtain ⟨⟨r₂, rest⟩, hnext, h⟩ := bind_eq_ok h
    dsimp only at h
    split at h
    · obtain ⟨a, fair, hrun⟩ := exists_action_of_next hnext
      exact ih r₂ rest ‹_› (step a r r₂ fair hrun hr) h
    · cases h

end Reading

/-! ## Expressions and levels, part by part -/

/-- The predicate holds of an expression if it does of the parts, apart from groups, lookarounds and
what stands alone. -/
structure Expr.Local (P : Expr → Prop) : Prop where
  empty : P .empty
  seq : ∀ e f, P (.seq e f) ↔ P e ∧ P f
  alt : ∀ e f, P (.alt e f) ↔ P e ∧ P f
  repeated : ∀ low high greedy e, P (.repeated low high greedy e) ↔ P e
  atomic : ∀ e, P (.atomic e) ↔ P e

/-- The predicate holds of everything that has been read of the group. -/
def Level.All (P : Expr → Prop) (l : Level) : Prop :=
  (∀ e ∈ l.items, P e) ∧ ∀ e ∈ l.branches, P e

section Local

variable {P : Expr → Prop} (hP : Expr.Local P) {l : Level} {e : Expr}

theorem Level.all_push : (l.push e).All P ↔ P e ∧ l.All P := by
  simp only [All, push, List.forall_mem_cons, and_assoc]

include hP

theorem Expr.Local.concat (es : List Expr) : P (.concat es) ↔ ∀ e ∈ es, P e := by
  fun_induction Expr.concat es with
  | case1 => simp [hP.empty]
  | case2 e => simp
  | case3 e es _ ih => simp only [hP.seq, ih, List.forall_mem_cons]

theorem Expr.Local.choice (es : List Expr) : P (.choice es) ↔ ∀ e ∈ es, P e := by
  fun_induction Expr.choice es with
  | case1 => simp [hP.empty]
  | case2 e => simp
  | case3 e es _ ih => simp only [hP.alt, ih, List.forall_mem_cons]

theorem Level.all_nextBranch : l.nextBranch.All P ↔ l.All P := by
  simp [All, nextBranch, hP.concat]

theorem Level.all_expr : P l.expr ↔ l.All P := by
  simp only [All, expr, hP.choice, List.mem_reverse, List.forall_mem_cons, hP.concat]

end Local

/-- The item that a repetition leaves in the place of another one. -/
def Expr.quantified (low : Nat) (high : Option Nat) (greedy possessive : Bool) (e : Expr) : Expr :=
  if possessive then .atomic (.repeated low high greedy e) else .repeated low high greedy e

theorem Expr.Local.quantified {P : Expr → Prop} (hP : Expr.Local P) {low : Nat}
    {high : Option Nat} {greedy possessive : Bool} {e : Expr} :
    P (e.quantified low high greedy possessive) ↔ P e := by
  unfold Expr.quantified
  split
  · rw [hP.atomic, hP.repeated]
  · exact hP.repeated ..

namespace Reading

theorem quantify_of_items {r : Reading} {e : Expr} {es : List Expr} (h : r.level.items = e :: es)
    (low : Nat) (high : Option Nat) (greedy possessive : Bool) :
    r.quantify low high greedy possessive = .ok { r with
      level := { r.level with items := e.quantified low high greedy possessive :: es } } := by
  unfold quantify
  rw [h]
  rfl

/-- Only an item can be repeated. -/
theorem exists_item_of_quantify {r r₁ : Reading} {low : Nat} {high : Option Nat}
    {greedy possessive : Bool} (h : r.quantify low high greedy possessive = .ok r₁) :
    ∃ e es, r.level.items = e :: es := by
  cases hitems : r.level.items with
  | nil =>
    unfold quantify at h
    rw [hitems] at h
    cases h
  | cons e es => exact ⟨e, es, rfl⟩

/-- A group closes if it is inside of another one. -/
theorem closeGroup_of_settle {r : Reading} {level parent : Level} {outer : List Level}
    (h : r.level.settle r.outer = (level, parent :: outer)) :
    r.closeGroup = .ok { r with
      options := level.outside
      level := parent.push (level.opening.wrap level.expr)
      outer } := by
  unfold closeGroup
  rw [h]

theorem settle_of_closeGroup {r r₁ : Reading} (h : r.closeGroup = .ok r₁) :
    ∃ level parent outer, r.level.settle r.outer = (level, parent :: outer) := by
  unfold closeGroup at h
  split at h
  · cases h
  · exact ⟨_, _, _, ‹_›⟩

end Reading

end ScopedText.Regex
