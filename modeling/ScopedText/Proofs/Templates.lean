import ScopedText.Pattern.Basic
import ScopedText.Regex.Search
import ScopedText.Proofs.Fills
import ScopedText.Proofs.Modes

/-!
# Patterns with references left out and filled in

A pattern is checked with its references left out. What a scan compiles has something in their
places: in the closing pattern of a region it is the texts of the opening match, in a pattern to
search for it is the references themselves. A reference stands free if the items before it are read
alike whatever is in its place (`Stands`). What stands there then only adds to what has been read,
which breaks nothing that was checked: a template compiles with texts in it (`compiles_fill`), and a
pattern with references to its own groups compiles as it is written (`compile_asWritten`).
-/

namespace ScopedText.Regex

open Pattern Backreference

/-! ## What stands in the place of a reference -/

/-- What is put in the places of references. -/
structure Filling where
  /-- The characters for each group. -/
  texts : (Nat → List Char) → Prop
  /-- Whether a reference to the group can stand before these characters. -/
  suits : Nat → List Char → Prop

/-- Whatever is put in the place of a reference adds to what has been read, and so does nothing. -/
structure Filling.Adds (F : Filling) (k : Nat) : Prop where
  empty : F.texts fun _ => []
  place : ∀ {texts : Nat → List Char} {d : Char} {n : Nat} {rest : List Char} {r r' : Reading},
    F.texts texts → digit? d = some n → F.suits n rest → r.Fills k r' →
      ∃ r₁', r.Fills k r₁'
        ∧ r'.readAll (texts n ++ replace texts rest) = r₁'.readAll (replace texts rest)

def Filling.literal : Filling where
  texts texts := ∀ n, ∃ s, texts n = escapeChars s
  suits _ _ := True

/-- Nothing, or the references themselves: to one of the first `k` groups, and not before a digit,
with which they would be read as another number. -/
def Filling.asWritten (k : Nat) : Filling where
  texts texts := texts = (fun _ => []) ∨ texts = fun n => ['\\', Char.ofNat (n + 48)]
  suits n rest := n ≤ k ∧ ∀ c ∈ rest.head?, c.isDigit = false

/-- A character that is written literally is read as itself, or as a blank that does not count. -/
theorem Reading.next_literal (r : Reading) (c : Char) :
    ∃ r₁, (r₁ = r.pushChar c ∨ r.options.extended = true ∧ r₁ = r)
      ∧ ∀ cs, r.next ((Item.ofLiteral c).chars ++ cs) = .ok (r₁, cs) := by
  unfold Item.ofLiteral
  split
  · rename_i hspecial
    refine ⟨r.pushChar c, .inl rfl, fun cs => ?_⟩
    simp only [specialChars, List.contains_iff_mem, List.mem_cons, List.not_mem_nil, or_false]
      at hspecial
    rcases hspecial with rfl | rfl | rfl | rfl | rfl | rfl | rfl | rfl | rfl | rfl | rfl | rfl | rfl
      | rfl | rfl | rfl | rfl | rfl | rfl <;> rfl
  · rename_i hplain
    have hcomment : (c == '#') = false := by
      refine Bool.eq_false_iff.mpr fun hc => hplain ?_
      rw [beq_iff_eq.mp hc]
      decide
    refine ⟨if r.options.extended && isPatternBlank c then r else r.pushChar c, ?_, fun cs => ?_⟩
    · split
      · rename_i hblank
        exact .inr ⟨(Bool.and_eq_true_iff.mp hblank).1, rfl⟩
      · exact .inl rfl
    · simp only [Item.chars, List.singleton_append, next]
      split
      case h_13 =>
        rw [hcomment, Bool.and_false, if_neg Bool.false_ne_true]
        split <;> rfl
      all_goals exact absurd (by decide) hplain

/-- Reading a text that is written literally adds literal characters. -/
theorem Reading.Fills.readAll_escapeChars {k : Nat} {r r' : Reading} (h : r.Fills k r')
    (s cs : List Char) :
    ∃ r₁', r.Fills k r₁' ∧ r'.readAll (escapeChars s ++ cs) = r₁'.readAll cs := by
  induction s generalizing r' with
  | nil => exact ⟨r', h, rfl⟩
  | cons c s ih =>
    have hlt : (escapeChars s ++ cs).length
        < ((Item.ofLiteral c).chars ++ (escapeChars s ++ cs)).length := by
      have hpos : 0 < (Item.ofLiteral c).chars.length := by
        unfold Item.ofLiteral
        split <;> exact Nat.succ_pos _
      simp only [List.length_append]
      omega
    rw [escapeChars_cons, List.append_assoc]
    obtain ⟨r₂, hr₂, hnext⟩ := r'.next_literal c
    have hfills₂ : r.Fills k r₂ := by
      rcases hr₂ with rfl | ⟨-, rfl⟩
      · exact h.pushChar c
      · exact h
    obtain ⟨r₁', hfills, hread⟩ := ih hfills₂
    exact ⟨r₁', hfills, (readAll_of_next (hnext _) hlt).trans hread⟩

theorem Filling.literal_adds : Filling.literal.Adds 0 where
  empty _ := ⟨[], rfl⟩
  place {_ _ n rest _ _} htexts _ _ hfills := by
    obtain ⟨s, hs⟩ := htexts n
    rw [hs]
    exact hfills.readAll_escapeChars s _

theorem toNat_of_digit? {c : Char} {n : Nat} (h : digit? c = some n) :
    n = c.toNat - 48 ∧ 0 < n ∧ n ≤ 9 ∧ c = Char.ofNat (n + 48)
      ∧ ('1' ≤ c && c ≤ '9') = true := by
  unfold digit? at h
  split at h
  · rename_i hrange
    obtain ⟨hlow, hhigh⟩ := Bool.and_eq_true_iff.mp hrange
    have hlow' : 49 ≤ c.toNat := Char.le_def.mp (of_decide_eq_true hlow)
    have hhigh' : c.toNat ≤ 57 := Char.le_def.mp (of_decide_eq_true hhigh)
    cases h
    refine ⟨rfl, by omega, by omega, ?_, hrange⟩
    rw [Nat.sub_add_cancel (by omega), Char.ofNat_toNat]
  · cases h

theorem number_of_digit {d : Char} (hd : d.isDigit = true) {rest : List Char}
    (hrest : ∀ c ∈ rest.head?, c.isDigit = false) :
    Reading.number (d :: rest) = (some (d.toNat - 48), rest) := by
  have htake : rest.takeWhile Char.isDigit = [] := by
    cases rest with
    | nil => rfl
    | cons c rest => simp [hrest c rfl]
  have hdrop : rest.dropWhile Char.isDigit = rest := by
    cases rest with
    | nil => rfl
    | cons c rest => simp [hrest c rfl]
  simp [Reading.number, hd, htake, hdrop]

/-- A reference that no digit follows is read as a reference to its group. -/
theorem Reading.next_reference (r : Reading) {d : Char} {n : Nat} (hd : digit? d = some n)
    {rest : List Char} (hrest : ∀ c ∈ rest.head?, c.isDigit = false) :
    r.next ('\\' :: d :: rest)
      = .ok ({ r.push (.backref [n] r.options.ignoreCase) with numbered := true }, rest) := by
  obtain ⟨hn, hpos, hle, _, hrange⟩ := toNat_of_digit? hd
  have hdigit : d.isDigit = true := by
    obtain ⟨hlow, hhigh⟩ := Bool.and_eq_true_iff.mp hrange
    have hlow' : '0' ≤ d := Char.le_trans (by decide) (of_decide_eq_true hlow)
    exact Bool.and_eq_true_iff.mpr ⟨decide_eq_true hlow', hhigh⟩
  have hnumber := number_of_digit hdigit hrest
  simp only [next, pushEscape]
  split
  case h_16 =>
    have hmax : n ≤ maxReference := Nat.le_trans hle (by decide)
    rw [if_pos hrange, hnumber, ← hn]
    simp [hle, hmax, pushNumbered, Nat.ne_of_gt hpos]
  all_goals cases hd

/-- With the references themselves in their places, a pattern is what it was. -/
theorem replace_asWritten (cs : List Char) :
    replace (fun n => ['\\', Char.ofNat (n + 48)]) cs = cs := by
  fun_induction replace (fun n => ['\\', Char.ofNat (n + 48)]) cs with
  | case1 => rfl
  | case2 => rfl
  | case3 c cs n hn ih =>
    obtain ⟨-, -, -, hc, -⟩ := toNat_of_digit? hn
    rw [ih, ← hc, List.cons_append, List.singleton_append]
  | case4 c cs hn ih => rw [ih]
  | case5 c cs _ _ ih => rw [ih]

theorem Filling.asWritten_adds (k : Nat) : (Filling.asWritten k).Adds k where
  empty := .inl rfl
  place {_ d n rest _ r'} htexts hd hsuits hfills := by
    rcases htexts with rfl | rfl
    · exact ⟨r', hfills, rfl⟩
    · obtain ⟨-, hpos, -, hchar, -⟩ := toNat_of_digit? hd
      rw [replace_asWritten]
      dsimp only
      rw [← hchar]
      have hnext := r'.next_reference hd hsuits.2
      have hlt : rest.length < ('\\' :: d :: rest).length := by
        simp only [List.length_cons]
        omega
      exact ⟨_, hfills.refer hpos hsuits.1, Reading.readAll_of_next hnext hlt⟩

/-! ## References that stand free -/

/-- All references in what is left of a pattern stand free: they stand between the items, and each
item before a reference is read alike whatever is put in the places of the references after it. -/
inductive Stands (F : Filling) : Reading → List Char → Prop
  | rest (r : Reading) {cs : List Char} (none : isIn cs = false) : Stands F r cs
  | reference {r : Reading} {n : Nat} {d : Char} {rest : List Char} (hd : digit? d = some n)
    (suits : F.suits n rest) (left : Stands F r rest) : Stands F r ('\\' :: d :: rest)
  | item {r r₁ : Reading} {w rest : List Char} (nonempty : w ≠ [])
    (whole : ∀ texts, replace texts (w ++ rest) = w ++ replace texts rest)
    (alike : ∀ texts, F.texts texts →
      r.next (w ++ replace texts rest) = .ok (r₁, replace texts rest))
    (left : Stands F r₁ rest) : Stands F r (w ++ rest)

section

variable {F : Filling} {k : Nat} {texts : Nat → List Char} {r r' r₁ r₁' : Reading} {cs : List Char}

/-- Both readings get to the same rest, where no reference is left and what was read with something
in the places of the references fills what was read with these left out. -/
theorem Stands.exists_rest (hF : F.Adds k) (htexts : F.texts texts) (h : Stands F r cs)
    (hfills : r.Fills k r') :
    ∃ (r₂ r₂' : Reading) (rest : List Char), r₂.Fills k r₂'
      ∧ r.readAll (replace (fun _ => []) cs) = r₂.readAll rest
      ∧ r'.readAll (replace texts cs) = r₂'.readAll rest := by
  induction h generalizing r' with
  | rest r none =>
    rw [replace_of_not_isIn none, replace_of_not_isIn none]
    exact ⟨r, r', _, hfills, rfl, rfl⟩
  | @reference r n d rest hd suits left ih =>
    simp only [replace, hd, List.nil_append]
    obtain ⟨r₂, hfills₂, hplace⟩ := hF.place htexts hd suits hfills
    rw [hplace]
    exact ih hfills₂
  | @item r r₂ w rest nonempty whole alike left ih =>
    have hlt (cs : List Char) : cs.length < (w ++ cs).length := by
      simpa using List.length_pos_of_ne_nil nonempty
    -- the item is the same in both patterns, and both readings go on behind it
    obtain ⟨r₂', hnext', hfills₂⟩ := hfills.next (alike texts htexts)
    rw [whole, whole, Reading.readAll_of_next (alike _ hF.empty) (hlt _),
      Reading.readAll_of_next hnext' (hlt _)]
    exact ih hfills₂

/-- What is read with the references left out is read with something in their places. -/
theorem Stands.readAll (hF : F.Adds k) (htexts : F.texts texts) (h : Stands F r cs)
    (hfills : r.Fills k r') (hread : r.readAll (replace (fun _ => []) cs) = .ok r₁) :
    ∃ r₁', r'.readAll (replace texts cs) = .ok r₁' ∧ r₁.Fills k r₁' := by
  obtain ⟨r₂, r₂', rest, hfills₂, hout, hin⟩ := h.exists_rest hF htexts hfills
  rw [hin]
  exact hfills₂.readAll (hout.symm.trans hread)

/-- What is read with something in the places of the references is read with these left out, unless
nothing is left to repeat. -/
theorem Stands.readAll_back (hF : F.Adds k) (htexts : F.texts texts) (h : Stands F r cs)
    (hfills : r.Fills k r') (hread : r'.readAll (replace texts cs) = .ok r₁') :
    r.readAll (replace (fun _ => []) cs) = .error .nothingToRepeat
      ∨ ∃ r₁, r.readAll (replace (fun _ => []) cs) = .ok r₁ ∧ r₁.Fills k r₁' := by
  obtain ⟨r₂, r₂', rest, hfills₂, hout, hin⟩ := h.exists_rest hF htexts hfills
  rw [hout]
  exact hfills₂.readAll_back (hin.symm.trans hread)

end

/-- With more between its items a pattern compiles as well, if this passes what is checked and there
are references only where all groups capture. -/
theorem compile_of_fills {capturing : Capturing} {k : Nat} {pattern pattern' : String}
    {r r' : Reading} (hread : Reading.ofPattern pattern.toList = .ok r)
    (hread' : Reading.ofPattern pattern'.toList = .ok r') (hfills : r.Fills k r')
    (hallows : (r.test capturing).Allows k) (hmode : k = 0 ∨ capturing = .all)
    (h : ∃ regex, compile capturing pattern = .ok regex) :
    ∃ regex, compile capturing pattern' = .ok regex := by
  obtain ⟨r₀, e, hread₀, hfinish, hnumbered, hpasses⟩ := exists_compile_iff.mp h
  cases hread.symm.trans hread₀
  obtain ⟨e', hfinish', hsame⟩ := hfills.finish hfinish
  have hbyName : r'.byName = r.byName := by
    unfold Reading.byName
    rw [hfills.names]
  have htest : r'.test capturing = r.test capturing := by
    simp only [Reading.test, hbyName, hfills.names, hfills.groups]
  refine exists_compile_iff.mpr
    ⟨r', e', hread', hfinish', ?_, htest ▸ (hsame _ hallows).mp hpasses⟩
  rcases hmode with hnone | hall
  · rwa [hfills.names, hfills.numbered hnone]
  · exact .inl hall

theorem strip_of_not_has {pattern : String} (h : Backreference.has pattern = false) :
    strip pattern = pattern := by
  rw [strip, replace_of_not_isIn h, String.ofList_toList]

/-- What is checked of a pattern is the pattern without its references. -/
theorem countGroups_eq (pattern : String) :
    countGroups pattern = (compile .namedFirst (strip pattern)).map (·.groups) := by
  have hstripped : (if Backreference.has pattern then strip pattern else pattern)
      = strip pattern := by
    cases hhas : Backreference.has pattern with
    | true => rfl
    | false => exact (strip_of_not_has hhas).symm
  rw [countGroups, hstripped]
  rfl

theorem exists_compile_strip {pattern : String} {groups : Nat}
    (h : countGroups pattern = .ok groups) :
    ∃ regex, compile .namedFirst (strip pattern) = .ok regex := by
  rw [countGroups_eq] at h
  obtain ⟨regex, hregex, _⟩ := map_eq_ok h
  exact ⟨regex, hregex⟩

theorem literal_texts (texts : List (Option String)) :
    Filling.literal.texts fun n => (texts.map fun text => match text with
      | some s => escapeChars s.toList
      | none => []).getD n [] := by
  intro n
  simp only [List.getD_eq_getElem?_getD, List.getElem?_map]
  cases texts[n]? with
  | none => exact ⟨[], rfl⟩
  | some text =>
    cases text with
    | none => exact ⟨[], rfl⟩
    | some s => exact ⟨s.toList, rfl⟩

/-- A template compiles with texts in it if it compiles without them and all references in it stand
free. -/
theorem compiles_fill {template : String} {groups : Nat}
    (hvalid : countGroups template = .ok groups) (hstands : Stands .literal {} template.toList)
    (texts : List (Option String)) : (Pattern.ofString (fill template texts)).compiles = true := by
  have hchecked := exists_compile_strip hvalid
  obtain ⟨r, _, hread, _⟩ := exists_compile_iff.mp hchecked
  have hread₀ := hread
  rw [strip, String.toList_ofList] at hread₀
  obtain ⟨r', hread', hfills⟩ :=
    hstands.readAll Filling.literal_adds (literal_texts texts) (.refl {}) hread₀
  have hfilled : Reading.ofPattern (fill template texts).toList = .ok r' := by
    rw [fill, String.toList_ofList]
    exact hread'
  obtain ⟨regex, hregex⟩ :=
    compile_of_fills hread hfilled hfills (Test.allows_zero _) (.inl rfl) hchecked
  have hcompiles : (Pattern.ofString (fill template texts)).compiles
      = (compile .namedFirst (fill template texts)).toBool := rfl
  rw [hcompiles, hregex]
  rfl

/-- A pattern compiles as it is written if it compiles without its references, these refer to its
groups and stand free, and the mode of capturing makes no difference. -/
theorem compile_asWritten {pattern : String} {groups : Nat}
    (hvalid : countGroups pattern = .ok groups) (hmixed : ¬ Mixed (strip pattern))
    (hstands : ∀ r, Reading.ofPattern (strip pattern).toList = .ok r →
      Stands (.asWritten r.groups) {} pattern.toList) :
    ∃ regex, compile .all pattern = .ok regex := by
  have hchecked := compile_all (exists_compile_strip hvalid) hmixed
  obtain ⟨r, _, hread, _⟩ := exists_compile_iff.mp hchecked
  have hread₀ := hread
  rw [strip, String.toList_ofList] at hread₀
  obtain ⟨r', hread', hfills⟩ :=
    (hstands r hread).readAll (Filling.asWritten_adds r.groups) (.inr rfl) (.refl {}) hread₀
  rw [replace_asWritten] at hread'
  have hallows : (r.test .all).Allows r.groups := by
    rw [Reading.test, if_pos (.inl rfl)]
    exact Test.allows_some (Nat.le_refl _)
  exact compile_of_fills hread hread' hfills hallows (.inr rfl) hchecked

/-! ## Items that are read alike in front of anything -/

/-- Escapes with a meaning of their own that are complete. -/
def completeEscapes : List Char :=
  ['b', 'B', 'A', 'Z', 'z', 'G', 'R', 'N', 'O', 'w', 'W', 'd', 'D', 's', 'S', 'h', 'H']

/-- The item does not depend on what follows it. Not all such items are listed: a class or the head
of a group is one as well if it is complete. -/
def Standalone : Item → Bool
  | .escape c => (specialChars ++ completeEscapes).contains c
  | .plain c => !(['\\', '[', '(', ')', '*', '+', '?', '{'].contains c)
  | .loneBackslash => false

theorem digit?_of_mem {c : Char} (h : c ∈ specialChars ++ completeEscapes) : digit? c = none := by
  have hall : (specialChars ++ completeEscapes).all (fun c => (digit? c).isNone) = true := by rfl
  exact Option.isNone_iff_eq_none.mp (List.all_eq_true.mp hall c h)

theorem exists_next_of_standalone {r : Reading} (hr : r.options.extended = false) {item : Item}
    (h : Standalone item = true) :
    ∃ r₁ : Reading, r₁.options.extended = false
      ∧ ∀ cs, r.next (item.chars ++ cs) = .ok (r₁, cs) := by
  cases item with
  | loneBackslash => cases h
  | plain c =>
    by_cases hmeaning : c ∈ ['.', '^', '$', '|']
    · simp only [List.mem_cons, List.not_mem_nil, or_false] at hmeaning
      rcases hmeaning with rfl | rfl | rfl | rfl
      all_goals
        refine ⟨_, ?_, fun cs => rfl⟩
        exact hr
    · refine ⟨r.pushChar c, hr, fun cs => ?_⟩
      simp only [Item.chars, List.singleton_append, Reading.next, hr, Bool.false_and]
      split
      case h_13 => rfl
      case h_2 | h_3 | h_4 | h_8 => exact absurd (by decide) hmeaning
      all_goals cases h
  | escape c =>
    simp only [Standalone, List.contains_iff_mem, List.mem_append] at h
    rcases h with hspecial | hcomplete
    · obtain ⟨r₁, hr₁, hnext⟩ := r.next_literal c
      rw [Item.ofLiteral, if_pos (List.contains_iff_mem.mpr hspecial)] at hnext
      rcases hr₁ with rfl | ⟨-, rfl⟩
      · exact ⟨r.pushChar c, hr, hnext⟩
      · exact ⟨r₁, hr, hnext⟩
    · simp only [completeEscapes, List.mem_cons, List.not_mem_nil, or_false] at hcomplete
      rcases hcomplete with rfl | rfl | rfl | rfl | rfl | rfl | rfl | rfl | rfl | rfl | rfl | rfl
        | rfl | rfl | rfl | rfl | rfl
      all_goals
        refine ⟨_, ?_, fun cs => rfl⟩
        exact hr

/-- References stand free between items that do not depend on what follows them. -/
theorem stands_of_standalone {r : Reading} (hr : r.options.extended = false) {cs : List Char}
    (h : ∀ item ∈ Item.ofPattern cs,
      Standalone item = true ∨ ∃ d n, item = .escape d ∧ digit? d = some n) :
    Stands .literal r cs := by
  fun_induction Item.ofPattern cs generalizing r with
  | case1 => exact .rest r rfl
  | case2 =>
    have hlast := h .loneBackslash (by simp)
    simp [Standalone] at hlast
  | case3 c cs ih =>
    have hrest := fun item hitem => h item (List.mem_cons_of_mem _ hitem)
    rcases h (.escape c) List.mem_cons_self with hc | ⟨d, n, hd, hdigit⟩
    · obtain ⟨r₁, hr₁, hnext⟩ := exists_next_of_standalone hr hc
      refine .item (w := ['\\', c]) (by simp) ?_ (fun texts _ => hnext _) (ih hr₁ hrest)
      have hdigit := digit?_of_mem (List.contains_iff_mem.mp hc)
      intro texts
      simp only [List.cons_append, List.nil_append, replace, hdigit]
    · cases hd
      exact .reference hdigit trivial (ih hr hrest)
  | case4 c cs hlast hpair ih =>
    have hrest := fun item hitem => h item (List.mem_cons_of_mem _ hitem)
    rcases h (.plain c) List.mem_cons_self with hc | ⟨d, _, hd, _⟩
    · obtain ⟨r₁, hr₁, hnext⟩ := exists_next_of_standalone hr hc
      refine .item (w := [c]) (by simp) ?_ (fun texts _ => hnext _) (ih hr₁ hrest)
      have hne : c ≠ '\\' := by
        rintro rfl
        cases hc
      intro texts
      rw [List.singleton_append, List.singleton_append, replace]
      · exact fun h => absurd h hne
      · exact fun _ _ h => absurd h hne
    · cases hd

end ScopedText.Regex
