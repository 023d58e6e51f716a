import Mathlib.Logic.Relation
import ScopedText.Proofs.Answer

/-!
# How a list of rules is written out

The active patterns of a rule are its list, written out: a container stands for its own list where
it is met for the first time. An `Outline` shows this as a tree that follows the lists entry by
entry, and `writesOut_active` says what is in it. The containers that are written out are just those
that the rule leads to, through whatever circles; each of them is written out once, in one piece,
where it is met first in reading order.

There is no table of visited containers in an outline. Which container is met for the first time can
be read off it, in the order in which they are met (`FirstOnly`).
-/

namespace ScopedText

inductive Meaning
  | pattern (id : RuleId) (text : String)
  | container (id : RuleId) (entries : List Entry)
  | nothing

/-- A list of rules that is written out, entry by entry. -/
inductive Outline
  | done
  | pattern (id : RuleId) (text : String) (rest : Outline)
  /-- A container with its list. -/
  | expanded (id : RuleId) (inside rest : Outline)
  /-- A container without its list. -/
  | repeated (id : RuleId) (rest : Outline)
  | nothing (rest : Outline)

namespace Grammar

def meaning (g : Grammar) (e : Entry) : Meaning :=
  match g.target? e with
  | none => .nothing
  | some id => match g.rules[id]? with
    | some (.span r) => .pattern id (g.patternText r.pattern)
    | some (.region r) => .pattern id (g.patternText r.opening)
    | some (.container r) => .container id r.entries
    | some .inert | none => .nothing

/-- The patterns of the entries themselves, without those of containers. -/
def patternsOf (g : Grammar) (entries : List Entry) : List (RuleId × String) :=
  entries.filterMap fun e => match g.meaning e with
    | .pattern id text => some (id, text)
    | .container _ _ | .nothing => none

def ownPatterns (g : Grammar) (id : RuleId) : List (RuleId × String) := g.patternsOf (g.entries id)

/-- An entry in the list of the first rule stands for the second one, a container. -/
def Includes (g : Grammar) (owner id : RuleId) : Prop :=
  ∃ e ∈ g.entries owner, ∃ entries, g.meaning e = .container id entries

theorem entries_of_meaning {g : Grammar} {e : Entry} {id : RuleId} {entries : List Entry}
    (h : g.meaning e = .container id entries) : g.entries id = entries := by
  unfold meaning at h
  split at h
  · cases h
  · split at h <;> cases h
    rename_i hrule
    simp [Grammar.entries, hrule, Rule.entries]

section
variable {g : Grammar} {e : Entry} (es : List Entry)

theorem patternsOf_pattern {id : RuleId} {text : String} (h : g.meaning e = .pattern id text) :
    g.patternsOf (e :: es) = (id, text) :: g.patternsOf es := by
  simp [patternsOf, h]

theorem patternsOf_container {id : RuleId} {entries : List Entry}
    (h : g.meaning e = .container id entries) : g.patternsOf (e :: es) = g.patternsOf es := by
  simp [patternsOf, h]

theorem patternsOf_nothing (h : g.meaning e = .nothing) :
    g.patternsOf (e :: es) = g.patternsOf es := by
  simp [patternsOf, h]

end

end Grammar

namespace Outline

def patterns : Outline → List (RuleId × String)
  | done => []
  | pattern id text rest => (id, text) :: rest.patterns
  | expanded _ inside rest => inside.patterns ++ rest.patterns
  | repeated _ rest | nothing rest => rest.patterns

/-- The containers, in reading order, and whether they have their lists with them. -/
def met : Outline → List (RuleId × Bool)
  | done => []
  | pattern _ _ rest | nothing rest => rest.met
  | expanded id inside rest => (id, true) :: (inside.met ++ rest.met)
  | repeated id rest => (id, false) :: rest.met

/-- The containers that are written out. -/
def written (o : Outline) : List RuleId := (o.met.filter (·.2)).map (·.1)

def size : Outline → Nat
  | done => 0
  | pattern _ _ rest | repeated _ rest | nothing rest => rest.size + 1
  | expanded _ inside rest => inside.size + rest.size + 1

/-- The outline follows the entries one by one, and the list of each container in it. -/
inductive Of (g : Grammar) : List Entry → Outline → Prop
  | done : Of g [] .done
  | pattern {e : Entry} {es : List Entry} {rest : Outline} {id : RuleId} {text : String}
      (meaning : g.meaning e = .pattern id text) (left : Of g es rest) :
      Of g (e :: es) (.pattern id text rest)
  | expanded {e : Entry} {es entries : List Entry} {inside rest : Outline} {id : RuleId}
      (meaning : g.meaning e = .container id entries) (list : Of g entries inside)
      (left : Of g es rest) : Of g (e :: es) (.expanded id inside rest)
  | repeated {e : Entry} {es entries : List Entry} {rest : Outline} {id : RuleId}
      (meaning : g.meaning e = .container id entries) (left : Of g es rest) :
      Of g (e :: es) (.repeated id rest)
  | nothing {e : Entry} {es : List Entry} {rest : Outline} (meaning : g.meaning e = .nothing)
      (left : Of g es rest) : Of g (e :: es) (.nothing rest)

/-- Of the containers that are met, just those have their lists with them that have not been seen
before. -/
def FirstOnly (seen : List RuleId) : List (RuleId × Bool) → Prop
  | [] => True
  | (id, withList) :: met => (withList = true ↔ id ∉ seen) ∧ FirstOnly (id :: seen) met

/-- How the list of a rule is written out. -/
structure WritesOut (g : Grammar) (id : RuleId) (o : Outline) : Prop where
  /-- Entry by entry, the lists of containers in their places. -/
  follows : o.Of g (g.entries id)
  /-- A container is written out where it is met first, and the rule itself nowhere. -/
  first : FirstOnly [id] o.met
  /-- The active patterns are the patterns in reading order. -/
  active_eq : g.active id = o.patterns
  /-- No container is written out twice. -/
  nodup : o.written.Nodup
  /-- The containers that are written out are those that the rule leads to. -/
  mem_written : ∀ other, other ∈ o.written ↔ other ≠ id ∧ Relation.TransGen g.Includes id other
  /-- The active patterns are those of the rule and of these containers, each of them once. -/
  perm : (g.active id).Perm ((id :: o.written).flatMap g.ownPatterns)
  /-- The patterns of one list keep their order. -/
  sublist : ∀ other ∈ id :: o.written, (g.ownPatterns other).Sublist (g.active id)
  /-- Each of the lists is read once. -/
  size_eq : o.size = ((id :: o.written).flatMap g.entries).length

/-! ## What is met first -/

section
variable {seen seen' : List RuleId} {met : List (RuleId × Bool)}

theorem FirstOnly.congr (h : FirstOnly seen met) (hseen : ∀ id, id ∈ seen ↔ id ∈ seen') :
    FirstOnly seen' met := by
  induction met generalizing seen seen' with
  | nil => trivial
  | cons entry met ih =>
    obtain ⟨id, withList⟩ := entry
    refine ⟨by rw [← hseen]; exact h.1, ih h.2 fun other => ?_⟩
    simp only [List.mem_cons, hseen]

/-- What is written out was not seen before. -/
theorem FirstOnly.not_mem (h : FirstOnly seen met) {id : RuleId} (hid : (id, true) ∈ met) :
    id ∉ seen := by
  induction met generalizing seen with
  | nil => cases hid
  | cons entry met ih =>
    rcases List.mem_cons.mp hid with rfl | hid
    · exact h.1.mp rfl
    · exact fun hseen => ih h.2 hid (List.mem_cons_of_mem _ hseen)

theorem FirstOnly.nodup (h : FirstOnly seen met) : ((met.filter (·.2)).map (·.1)).Nodup := by
  induction met generalizing seen with
  | nil => exact List.nodup_nil
  | cons entry met ih =>
    obtain ⟨id, withList⟩ := entry
    cases withList with
    | false => exact ih h.2
    | true =>
      refine List.nodup_cons.mpr ⟨fun hid => ?_, ih h.2⟩
      obtain ⟨⟨other, withList⟩, hmem, rfl⟩ := List.mem_map.mp hid
      obtain ⟨hmem, htrue⟩ := List.mem_filter.mp hmem
      obtain rfl : withList = true := htrue
      exact h.2.not_mem hmem List.mem_cons_self

/-- What is met was seen before, or it is written out somewhere. -/
theorem FirstOnly.seen_or_written (h : FirstOnly seen met) {id : RuleId} {withList : Bool}
    (hid : (id, withList) ∈ met) : id ∈ seen ∨ (id, true) ∈ met := by
  induction met generalizing seen with
  | nil => cases hid
  | cons entry met ih =>
    obtain ⟨other, otherList⟩ := entry
    have here : other ∈ seen ∨ otherList = true := by
      by_cases hseen : other ∈ seen
      · exact .inl hseen
      · exact .inr (h.1.mpr hseen)
    have head (heq : id = other) : id ∈ seen ∨ (id, true) ∈ (other, otherList) :: met := by
      subst heq
      rcases here with hseen | rfl
      · exact .inl hseen
      · exact .inr List.mem_cons_self
    rcases List.mem_cons.mp hid with heq | hid
    · exact head (congrArg Prod.fst heq)
    · rcases ih h.2 hid with hseen | hwritten
      · rcases List.mem_cons.mp hseen with heq | hseen
        · exact head heq
        · exact .inl hseen
      · exact .inr (List.mem_cons_of_mem _ hwritten)

end

theorem mem_written_iff {o : Outline} {id : RuleId} : id ∈ o.written ↔ (id, true) ∈ o.met := by
  simp [written]

@[simp] theorem written_pattern (id : RuleId) (text : String) (rest : Outline) :
    (pattern id text rest).written = rest.written := rfl

@[simp] theorem written_repeated (id : RuleId) (rest : Outline) :
    (repeated id rest).written = rest.written := rfl

@[simp] theorem written_nothing (rest : Outline) : (nothing rest).written = rest.written := rfl

@[simp] theorem written_expanded (id : RuleId) (inside rest : Outline) :
    (expanded id inside rest).written = id :: (inside.written ++ rest.written) := by
  simp [written, met]

/-! ## Following the entries -/

variable {g : Grammar} {es : List Entry} {o : Outline}

/-- An outline of two lists, one behind the other, consists of an outline of each. -/
theorem Of.exists_split {xs ys : List Entry} (h : o.Of g (xs ++ ys)) :
    ∃ first second : Outline, first.Of g xs ∧ second.Of g ys
      ∧ o.patterns = first.patterns ++ second.patterns ∧ o.met = first.met ++ second.met := by
  induction xs generalizing o with
  | nil => exact ⟨.done, o, .done, h, rfl, rfl⟩
  | cons x xs ih =>
    cases h with
    | pattern meaning left =>
      obtain ⟨first, second, hfirst, hsecond, hpatterns, hmet⟩ := ih left
      exact ⟨.pattern _ _ first, second, .pattern meaning hfirst, hsecond,
        by simp [patterns, hpatterns], by simp [met, hmet]⟩
    | expanded meaning list left =>
      obtain ⟨first, second, hfirst, hsecond, hpatterns, hmet⟩ := ih left
      exact ⟨.expanded _ _ first, second, .expanded meaning list hfirst, hsecond,
        by simp [patterns, hpatterns], by simp [met, hmet]⟩
    | repeated meaning left =>
      obtain ⟨first, second, hfirst, hsecond, hpatterns, hmet⟩ := ih left
      exact ⟨.repeated _ first, second, .repeated meaning hfirst, hsecond,
        by simp [patterns, hpatterns], by simp [met, hmet]⟩
    | nothing meaning left =>
      obtain ⟨first, second, hfirst, hsecond, hpatterns, hmet⟩ := ih left
      exact ⟨.nothing first, second, .nothing meaning hfirst, hsecond,
        by simp [patterns, hpatterns], by simp [met, hmet]⟩

/-- The active patterns have an outline, in which what has been visited counts as seen. A container
that is met first is replaced by its list in front of the other entries, so the outline of that
list has to be split off. -/
theorem exists_activeFrom (g : Grammar) (visited : List RuleId) (es : List Entry) :
    ∃ o : Outline, o.Of g es ∧ FirstOnly visited o.met ∧ g.activeFrom visited es = o.patterns := by
  fun_induction Grammar.activeFrom g visited es with
  | case1 visited => exact ⟨.done, .done, trivial, rfl⟩
  | case2 visited e es htarget ih =>
    obtain ⟨o, hof, hfirst, hpatterns⟩ := ih
    exact ⟨.nothing o, .nothing (by simp [Grammar.meaning, htarget]) hof, hfirst, hpatterns⟩
  | case3 visited e es id htarget r hrule ih =>
    obtain ⟨o, hof, hfirst, hpatterns⟩ := ih
    have hmeaning : g.meaning e = .pattern id (g.patternText r.pattern) := by
      simp [Grammar.meaning, htarget, hrule]
    exact ⟨_, .pattern hmeaning hof, hfirst, by rw [patterns, hpatterns]⟩
  | case4 visited e es id htarget r hrule ih =>
    obtain ⟨o, hof, hfirst, hpatterns⟩ := ih
    have hmeaning : g.meaning e = .pattern id (g.patternText r.opening) := by
      simp [Grammar.meaning, htarget, hrule]
    exact ⟨_, .pattern hmeaning hof, hfirst, by rw [patterns, hpatterns]⟩
  | case5 visited e es id htarget r hrule hvisited ih =>
    obtain ⟨o, hof, hfirst, hpatterns⟩ := ih
    have hmeaning : g.meaning e = .container id r.entries := by
      simp [Grammar.meaning, htarget, hrule]
    have hmem : id ∈ visited := List.contains_iff_mem.mp hvisited
    refine ⟨_, .repeated hmeaning hof, ⟨by simp [hmem], ?_⟩, hpatterns⟩
    refine hfirst.congr fun other => ?_
    rw [List.mem_cons, iff_or_self]
    rintro rfl
    exact hmem
  | case6 visited e es id htarget r hrule hvisited ih =>
    obtain ⟨o, hof, hfirst, hpatterns⟩ := ih
    obtain ⟨inside, rest, hinside, hrest, hsplit, hmet⟩ := hof.exists_split
    have hmeaning : g.meaning e = .container id r.entries := by
      simp [Grammar.meaning, htarget, hrule]
    have hmem : id ∉ visited := fun h => hvisited (List.contains_iff_mem.mpr h)
    refine ⟨_, .expanded hmeaning hinside hrest, ⟨by simp [hmem], ?_⟩, ?_⟩
    · rwa [← hmet]
    · rw [hpatterns, hsplit, patterns]
  | case7 visited e es id htarget hspan hregion hcontainer ih =>
    obtain ⟨o, hof, hfirst, hpatterns⟩ := ih
    refine ⟨.nothing o, .nothing ?_ hof, hfirst, hpatterns⟩
    unfold Grammar.meaning
    rw [htarget]
    dsimp only
    split <;> simp_all

/-! ## What an outline holds -/

theorem Of.sublist (h : o.Of g es) : (g.patternsOf es).Sublist o.patterns := by
  induction h with
  | done => exact List.Sublist.refl _
  | pattern meaning _ ih =>
    rw [Grammar.patternsOf_pattern _ meaning]
    exact ih.cons_cons _
  | expanded meaning _ _ _ ih =>
    rw [Grammar.patternsOf_container _ meaning]
    exact ih.trans (List.sublist_append_right _ _)
  | repeated meaning _ ih => rwa [Grammar.patternsOf_container _ meaning]
  | nothing meaning _ ih => rwa [Grammar.patternsOf_nothing _ meaning]

/-- The patterns of each list that is written out stand in their order. -/
theorem Of.sublist_written (h : o.Of g es) {id : RuleId} (hid : id ∈ o.written) :
    (g.ownPatterns id).Sublist o.patterns := by
  induction h with
  | done => cases hid
  | pattern _ _ ih => exact (ih hid).cons _
  | expanded meaning list _ ihList ih =>
    rw [written_expanded, List.mem_cons, List.mem_append] at hid
    rcases hid with rfl | hid | hid
    · rw [Grammar.ownPatterns, Grammar.entries_of_meaning meaning]
      exact list.sublist.trans (List.sublist_append_left _ _)
    · exact (ihList hid).trans (List.sublist_append_left _ _)
    · exact (ih hid).trans (List.sublist_append_right _ _)
  | repeated _ _ ih | nothing _ _ ih => exact ih hid

/-- The patterns are those of the entries and those of the lists that are written out. -/
theorem Of.perm (h : o.Of g es) :
    o.patterns.Perm (g.patternsOf es ++ o.written.flatMap g.ownPatterns) := by
  induction h with
  | done => exact List.Perm.refl _
  | pattern meaning _ ih =>
    rw [Grammar.patternsOf_pattern _ meaning]
    exact ih.cons _
  | @expanded e es entries inside rest id meaning list left ihList ih =>
    have hown : g.ownPatterns id = g.patternsOf entries := by
      rw [Grammar.ownPatterns, Grammar.entries_of_meaning meaning]
    -- the entries change places with the list that is written out before them
    calc (inside.patterns ++ rest.patterns).Perm
          ((g.patternsOf entries ++ inside.written.flatMap g.ownPatterns)
            ++ (g.patternsOf es ++ rest.written.flatMap g.ownPatterns)) := ihList.append ih
      _ |>.Perm (g.patternsOf es ++ ((g.patternsOf entries
            ++ inside.written.flatMap g.ownPatterns) ++ rest.written.flatMap g.ownPatterns)) :=
          List.perm_append_comm_assoc _ _ _
      _ = g.patternsOf (e :: es)
            ++ (Outline.expanded id inside rest).written.flatMap g.ownPatterns := by
          simp [Grammar.patternsOf_container _ meaning, hown]
  | repeated meaning _ ih => rwa [Grammar.patternsOf_container _ meaning]
  | nothing meaning _ ih => rwa [Grammar.patternsOf_nothing _ meaning]

theorem Of.size_eq (h : o.Of g es) : o.size = (es ++ o.written.flatMap g.entries).length := by
  induction h with
  | done => rfl
  | pattern _ _ ih | repeated _ _ ih | nothing _ _ ih =>
    rw [size, ih]
    rfl
  | expanded meaning _ _ ihList ih =>
    simp only [size, ihList, ih, written_expanded, List.flatMap_cons, List.flatMap_append,
      List.length_append, Grammar.entries_of_meaning meaning, List.length_cons]
    omega

/-- The entries lead to every container that is met. -/
theorem Of.exists_leads (h : o.Of g es) {id : RuleId} {withList : Bool}
    (hid : (id, withList) ∈ o.met) :
    ∃ e ∈ es, ∃ first entries, g.meaning e = .container first entries
      ∧ Relation.ReflTransGen g.Includes first id := by
  induction h with
  | done => cases hid
  | pattern _ _ ih | nothing _ _ ih =>
    obtain ⟨e, he, hleads⟩ := ih hid
    exact ⟨e, List.mem_cons_of_mem _ he, hleads⟩
  | expanded meaning _ _ ihList ih =>
    rw [met, List.mem_cons, List.mem_append] at hid
    rcases hid with heq | hid | hid
    · cases heq
      exact ⟨_, List.mem_cons_self, _, _, meaning, .refl⟩
    · obtain ⟨e, he, first, entries, hfirst, hleads⟩ := ihList hid
      rw [← Grammar.entries_of_meaning meaning] at he
      exact ⟨_, List.mem_cons_self, _, _, meaning, .head ⟨e, he, entries, hfirst⟩ hleads⟩
    · obtain ⟨e, he, hleads⟩ := ih hid
      exact ⟨e, List.mem_cons_of_mem _ he, hleads⟩
  | repeated meaning _ ih =>
    rcases List.mem_cons.mp hid with heq | hid
    · cases heq
      exact ⟨_, List.mem_cons_self, _, _, meaning, .refl⟩
    · obtain ⟨e, he, hleads⟩ := ih hid
      exact ⟨e, List.mem_cons_of_mem _ he, hleads⟩

/-- Every container among the entries is met. -/
theorem Of.exists_met (h : o.Of g es) {e : Entry} (he : e ∈ es) {id : RuleId}
    {entries : List Entry} (hmeaning : g.meaning e = .container id entries) :
    ∃ withList, (id, withList) ∈ o.met := by
  induction h with
  | done => cases he
  | pattern meaning _ ih | nothing meaning _ ih =>
    rcases List.mem_cons.mp he with rfl | he
    · cases hmeaning.symm.trans meaning
    · exact ih he
  | expanded meaning _ _ _ ih =>
    rcases List.mem_cons.mp he with rfl | he
    · cases hmeaning.symm.trans meaning
      exact ⟨true, List.mem_cons_self⟩
    · obtain ⟨withList, hmem⟩ := ih he
      exact ⟨withList, List.mem_cons_of_mem _ (List.mem_append_right _ hmem)⟩
  | repeated meaning _ ih =>
    rcases List.mem_cons.mp he with rfl | he
    · cases hmeaning.symm.trans meaning
      exact ⟨false, List.mem_cons_self⟩
    · obtain ⟨withList, hmem⟩ := ih he
      exact ⟨withList, List.mem_cons_of_mem _ hmem⟩

/-- What a container includes is met if the container is written out. -/
theorem Of.exists_met_of_written (h : o.Of g es) {owner id : RuleId} (howner : owner ∈ o.written)
    (hid : g.Includes owner id) : ∃ withList, (id, withList) ∈ o.met := by
  induction h with
  | done => cases howner
  | pattern _ _ ih | nothing _ _ ih => exact ih howner
  | expanded meaning list _ ihList ih =>
    rw [written_expanded, List.mem_cons, List.mem_append] at howner
    rcases howner with rfl | howner | howner
    · obtain ⟨e, he, entries, hmeaning⟩ := hid
      rw [Grammar.entries_of_meaning meaning] at he
      obtain ⟨withList, hmem⟩ := list.exists_met he hmeaning
      exact ⟨withList, List.mem_cons_of_mem _ (List.mem_append_left _ hmem)⟩
    · obtain ⟨withList, hmem⟩ := ihList howner
      exact ⟨withList, List.mem_cons_of_mem _ (List.mem_append_left _ hmem)⟩
    · obtain ⟨withList, hmem⟩ := ih howner
      exact ⟨withList, List.mem_cons_of_mem _ (List.mem_append_right _ hmem)⟩
  | repeated _ _ ih =>
    obtain ⟨withList, hmem⟩ := ih howner
    exact ⟨withList, List.mem_cons_of_mem _ hmem⟩

/-- Whatever a rule leads to is the rule itself or is written out: what is included is met, and what
is met is written out where it is met first. -/
theorem eq_or_written_of_leads {id other : RuleId} (hof : o.Of g (g.entries id))
    (hfirst : FirstOnly [id] o.met) (h : Relation.ReflTransGen g.Includes id other) :
    other = id ∨ other ∈ o.written := by
  induction h with
  | refl => exact .inl rfl
  | @tail owner other _ hincludes ih =>
    obtain ⟨withList, hmet⟩ : ∃ withList, (other, withList) ∈ o.met := by
      rcases ih with rfl | hwritten
      · obtain ⟨e, he, entries, hmeaning⟩ := hincludes
        exact hof.exists_met he hmeaning
      · exact hof.exists_met_of_written hwritten hincludes
    rw [mem_written_iff]
    exact (hfirst.seen_or_written hmet).imp_left List.mem_singleton.mp

/-- **The active patterns are a list that is written out.** Every container that a rule leads to is
written out once, where it is met first. -/
theorem writesOut_active (g : Grammar) (id : RuleId) : ∃ o : Outline, o.WritesOut g id := by
  obtain ⟨o, hof, hfirst, hactive⟩ := exists_activeFrom g [id] (g.entries id)
  refine ⟨o, hof, hfirst, hactive, hfirst.nodup, fun other => ⟨fun hwritten => ?_, ?_⟩, ?perm,
    ?sublist, hof.size_eq⟩
  · have hmet := mem_written_iff.mp hwritten
    obtain ⟨e, he, first, entries, hmeaning, hleads⟩ := hof.exists_leads hmet
    exact ⟨fun heq => hfirst.not_mem hmet (List.mem_singleton.mpr heq),
      .head' ⟨e, he, entries, hmeaning⟩ hleads⟩
  · rintro ⟨hne, hleads⟩
    exact (eq_or_written_of_leads hof hfirst hleads.to_reflTransGen).resolve_left hne
  case perm =>
    rw [Grammar.active, hactive]
    exact hof.perm
  case sublist =>
    intro other hother
    rw [Grammar.active, hactive]
    rcases List.mem_cons.mp hother with rfl | hwritten
    · exact hof.sublist
    · exact hof.sublist_written hwritten

end Outline

end ScopedText
