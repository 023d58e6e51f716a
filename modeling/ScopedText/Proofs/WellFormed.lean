import ScopedText.Proofs.Answer
import ScopedText.Proofs.RuleTable

/-!
# Well-formed grammars

What every compiled grammar satisfies (`wellFormed_ofSource`): its rules stand at their numbers,
each of them once in a list or in the repository, lists only lead to later rules, references lead
to rules, and captures keep to the groups of their patterns.
-/

namespace ScopedText

namespace Pattern.Backreference

/-- A group is referred to: a digit from one to nine stands behind an odd number of backslashes, of
which the last one is escaped by no other. -/
def Refers (cs : List Char) : Prop :=
  ∃ (before : List Char) (n : Nat) (d : Char) (after : List Char),
    cs = before ++ (List.replicate (2 * n + 1) '\\' ++ d :: after)
      ∧ before.getLast? ≠ some '\\' ∧ '1' ≤ d ∧ d ≤ '9'

theorem isSome_digit? {c : Char} : (digit? c).isSome = true ↔ '1' ≤ c ∧ c ≤ '9' := by
  unfold digit?
  split <;> simp_all

theorem isIn_cons {c : Char} (hc : c ≠ '\\') (cs : List Char) : isIn (c :: cs) = isIn cs := by
  rw [isIn]
  · intro h
    exact absurd h hc
  · intro _ _ h
    exact absurd h hc

/-- A character that begins no pair is no backslash. -/
theorem ne_backslash {c : Char} {cs : List Char} (hlast : c = '\\' → cs = [] → False)
    (hpair : ∀ (d : Char) (ds : List Char), c = '\\' → cs = d :: ds → False) : c ≠ '\\' := by
  intro hc
  cases cs with
  | nil => exact hlast hc rfl
  | cons d ds => exact hpair d ds hc rfl

theorem isIn_replicate (n : Nat) {d : Char} (hd : '1' ≤ d ∧ d ≤ '9') (after : List Char) :
    isIn (List.replicate (2 * n + 1) '\\' ++ d :: after) = true := by
  induction n with
  | zero => simp [isIn, isSome_digit?.mpr hd]
  | succ n ih =>
    rw [show 2 * (n + 1) + 1 = (2 * n + 1) + 1 + 1 by omega, List.replicate_succ,
      List.replicate_succ]
    simp only [List.cons_append, isIn, ih, Bool.or_true]

theorem getLast?_ne_of_cons {c e : Char} {cs : List Char} (h : (c :: cs).getLast? ≠ some e) :
    cs.getLast? ≠ some e := by
  intro heq
  exact h (by rw [List.getLast?_cons, heq, Option.getD_some])

/-- Pairs are read alike in front of anything if no backslash stands last. -/
theorem isIn_append {before after : List Char} (hlast : before.getLast? ≠ some '\\')
    (h : isIn after = true) : isIn (before ++ after) = true := by
  fun_induction isIn before with
  | case1 => exact h
  | case2 => exact absurd rfl hlast
  | case3 c cs ih =>
    simp [isIn, ih (getLast?_ne_of_cons (getLast?_ne_of_cons hlast))]
  | case4 c cs hne hc ih =>
    rw [List.cons_append, isIn_cons (ne_backslash hne hc)]
    exact ih (getLast?_ne_of_cons hlast)

theorem Refers.cons {c : Char} {cs : List Char} (hc : c ≠ '\\') (h : Refers cs) :
    Refers (c :: cs) := by
  obtain ⟨before, n, d, after, rfl, hlast, hd⟩ := h
  refine ⟨c :: before, n, d, after, rfl, ?_, hd⟩
  rw [List.getLast?_cons]
  cases hbefore : before.getLast? with
  | none => simpa using hc
  | some last => simpa [hbefore] using hlast

/-- Two characters of which the first one escapes the second can be put in front. -/
theorem Refers.escaped {c : Char} {cs : List Char} (h : Refers cs) : Refers ('\\' :: c :: cs) := by
  obtain ⟨before, n, d, after, rfl, hlast, hd⟩ := h
  cases hbefore : before.getLast? with
  | some last =>
    refine ⟨'\\' :: c :: before, n, d, after, rfl, ?_, hd⟩
    rw [List.getLast?_cons, List.getLast?_cons, hbefore]
    simpa [hbefore] using hlast
  | none =>
    cases List.getLast?_eq_none_iff.mp hbefore
    by_cases hc : c = '\\'
    · subst hc
      refine ⟨[], n + 1, d, after, ?_, hlast, hd⟩
      rw [show 2 * (n + 1) + 1 = (2 * n + 1) + 1 + 1 by omega, List.replicate_succ,
        List.replicate_succ]
      rfl
    · exact ⟨['\\', c], n, d, after, rfl, by simpa using hc, hd⟩

theorem isIn_iff {cs : List Char} : isIn cs = true ↔ Refers cs := by
  constructor
  · intro h
    fun_induction isIn cs with
    | case1 => cases h
    | case2 => cases h
    | case3 c cs ih =>
      rcases Bool.or_eq_true_iff.mp h with hc | hcs
      · exact ⟨[], 0, c, cs, rfl, by simp, isSome_digit?.mp hc⟩
      · exact (ih hcs).escaped
    | case4 c cs hne hc ih => exact (ih h).cons (ne_backslash hne hc)
  · rintro ⟨before, n, d, after, rfl, hlast, hd⟩
    exact isIn_append hlast (isIn_replicate n hd after)

end Pattern.Backreference

namespace Grammar

variable {source : Source.Grammar} {g : Grammar}

theorem mem_entries {owner : RuleId} {e : Entry} :
    e ∈ g.entries owner ↔ ∃ rule, g.rules[owner]? = some rule ∧ e ∈ rule.entries := by
  unfold entries
  cases g.rules[owner]? <;> simp

/-- No reference dangles if every entry of every list leads to a rule. -/
theorem dangling?_eq_none_iff :
    g.dangling? = none ↔ ∀ owner, ∀ e ∈ g.entries owner, (g.target? e).isSome = true := by
  unfold dangling?
  rw [List.findSome?_eq_none_iff]
  constructor
  · intro h owner e he
    obtain ⟨rule, hrule, hmem⟩ := mem_entries.mp he
    have hnone := h e (List.mem_flatMap.mpr ⟨rule, (Array.mem_of_getElem? hrule).val, hmem⟩)
    cases e with
    | rule id => rfl
    | reference r =>
      cases hresolve : g.resolve r with
      | none => simp [hresolve] at hnone
      | some id => simp [target?, hresolve]
  · intro h e he
    obtain ⟨rule, hrule, hmem⟩ := List.mem_flatMap.mp he
    obtain ⟨owner, howner⟩ := Array.getElem?_of_mem (Array.mem_toList_iff.mp hrule)
    have hsome := h owner e (mem_entries.mpr ⟨rule, howner, hmem⟩)
    cases e with
    | rule id => rfl
    | reference r =>
      obtain ⟨id, hresolve⟩ := Option.isSome_iff_exists.mp hsome
      rw [target?] at hresolve
      simp [hresolve]

variable [Engine]

/-- The places that lead to rules: the lists of the rules and the repository. -/
def places (g : Grammar) : List RuleId :=
  g.rules.toList.flatMap Rule.children ++ g.repository.entries.map (·.2)

/-- What compiling makes sure of. -/
structure WellFormed (g : Grammar) : Prop where
  /-- The rule at the root is a container. -/
  root : ∃ r, g.rules[rootRule]? = some (.container r)
  /-- Each rule with an effect has the number of its place. -/
  numbered : Numbered g.rules
  /-- A list leads only to rules behind its owner. -/
  inside : ∀ owner child, .rule child ∈ g.entries owner → owner < child ∧ child < g.rules.size
  /-- Just one place leads to each rule other than the root, and none to the root. -/
  once : ∀ id, g.places.count id = if rootRule < id ∧ id < g.rules.size then 1 else 0
  /-- The patterns of a rule are there, and its captures keep to their groups. -/
  fits : ∀ rule ∈ g.rules, ∀ p ∈ rule.patterns, Fits g.patterns p.1 p.2
  /-- A closing pattern is a template if it refers to a group. -/
  template : ∀ r, .region r ∈ g.rules →
    (r.closingIsTemplate = true ↔ Pattern.Backreference.Refers (g.patternText r.closing).toList)
  /-- References lead to rules. -/
  references : ∀ owner r, .reference r ∈ g.entries owner →
    ∃ id, g.resolve r = some id ∧ id < g.rules.size

/-- The root and the places in the grammar are all the rules there are, each of them once. -/
theorem perm_ofSource (h : ofSource source = .ok g) :
    (rootRule :: g.places).Perm (List.range g.rules.size) := by
  obtain ⟨entries, rest, hadds, _⟩ := adds_ofSource h
  have hadded : g.rules.toList = .container { id := rootRule, entries } :: rest := hadds.rules
  have honce := hadds.once
  rw [← hadded, Array.length_toList, Array.size_empty, ← List.range_eq_range'] at honce
  exact (List.perm_append_comm.cons _).trans honce

/-- Whatever compiles is well-formed. -/
theorem wellFormed_ofSource (h : ofSource source = .ok g) : g.WellFormed := by
  obtain ⟨entries, rest, hadds, hdangling⟩ := adds_ofSource h
  have hadded : g.rules.toList = .container { id := rootRule, entries } :: rest := hadds.rules
  have hperm := perm_ofSource h
  have hroot : g.rules[rootRule]? = some (.container { id := rootRule, entries }) := by
    rw [← Array.getElem?_toList, hadded]
    rfl
  have hplaced {id : RuleId} (hid : id ∈ g.places) : id < g.rules.size :=
    List.mem_range.mp (hperm.subset (List.mem_cons_of_mem _ hid))
  refine ⟨⟨_, hroot⟩, numbered_ofSource h, ?inside, ?once, ?fits, ?template, ?references⟩
  case inside =>
    intro owner child hchild
    obtain ⟨rule, hrule, hmem⟩ := mem_entries.mp hchild
    have hlisted : child ∈ rule.children := List.mem_filterMap.mpr ⟨_, hmem, rfl⟩
    refine ⟨(sound_ofSource h hrule).below child hlisted, hplaced (List.mem_append_left _ ?_)⟩
    exact List.mem_flatMap.mpr ⟨rule, (Array.mem_of_getElem? hrule).val, hlisted⟩
  case once =>
    intro id
    have hsize : rootRule < g.rules.size := (Array.getElem?_eq_some_iff.mp hroot).1
    have hcount := hperm.count_eq id
    simp only [List.count_cons, List.nodup_range.count, List.mem_range, beq_iff_eq] at hcount
    by_cases hpos : rootRule < id
    · simpa [Nat.ne_of_lt hpos, hpos] using hcount
    · obtain rfl : rootRule = id := (Nat.eq_zero_of_not_pos hpos).symm
      rw [if_pos rfl, if_pos hsize] at hcount
      rw [if_neg fun h => hpos h.1]
      exact Nat.succ.inj hcount
  case fits =>
    intro rule hrule p hp
    obtain ⟨id, hid⟩ := Array.getElem?_of_mem hrule
    exact (sound_ofSource h hid).fits p hp
  case template =>
    intro r hr
    obtain ⟨id, hid⟩ := Array.getElem?_of_mem hr
    obtain ⟨text, htext, hhas⟩ := Option.map_eq_some_iff.mp ((sound_ofSource h hid).template r rfl)
    rw [patternText, htext, Option.getD_some, ← hhas]
    exact Pattern.Backreference.isIn_iff
  case references =>
    intro owner r hr
    obtain ⟨id, hid⟩ := Option.isSome_iff_exists.mp (dangling?_eq_none_iff.mp hdangling _ _ hr)
    rw [target?] at hid
    refine ⟨id, hid, ?_⟩
    cases r with
    | root =>
      cases hid
      exact (Array.getElem?_eq_some_iff.mp hroot).1
    | named name => exact hplaced (List.mem_append_right _ (NameMap.mem_of_find? hid))

end Grammar

end ScopedText
