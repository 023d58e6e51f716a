import Mathlib
import ScopedText.Proofs.NameTables
import ScopedText.Proofs.Outcome
import ScopedText.Regex.Search
import ScopedText.Registry

/-!
# What names mean in a registry

A registry starts out empty and changes by calls that add grammars, settings and aliases, and that
may fail. `record` makes such calls and notes what each of them has done, the latest first. The log
alone decides what a name means (`lookups_of_record`): the grammar whose number was bound to it
last, as a name or as an alias, and without such a binding the grammar that has it for its scope
name.

`Consistent` ties the tables of a registry to the log. It is enough to know what adding one grammar
does to all three tables (`Inserts`), whether it is a new one or takes the place of another.
-/

namespace ScopedText

section

variable [Engine]

def Grammar.compiled (source : Source.Grammar) : Except Error Grammar :=
  (Grammar.ofSource source).mapError .compile

def Grammar.ofJson (json : String) : Except Error Grammar :=
  match Source.Grammar.ofJson json with
  | .ok source => Grammar.compiled source
  | .error fault => .error (.json fault)

def Grammar.ofFile (contents : Option String) : Except Error Grammar :=
  match contents with
  | some json => Grammar.ofJson json
  | none => .error .missingFile

namespace Registry

/-- A call that can change a registry. -/
inductive Addition
  | source (source : Source.Grammar)
  | grammar (json : String)
  | grammarFile (contents : Option String)
  | settings (json : String)
  | settingsFile (contents : Option String)
  | otherName (name other : String)

inductive Event
  /-- The grammar was added and has this number. -/
  | added (g : Grammar) (id : GrammarId)
  /-- The name stands for this number. -/
  | named (other : String) (id : GrammarId)
  | settled
  /-- There was no grammar to give a name to. -/
  | unknown
  | refused (cause : Error)

namespace Event

/-- The call has failed, or it was about a grammar that is not known. -/
def Idle : Event → Prop
  | unknown | refused _ => True
  | added _ _ | named _ _ | settled => False

/-- The number that the event binds to a name. -/
def binds? (name : String) : Event → Option GrammarId
  | added g id => if g.name = name then some id else none
  | named other id => if other = name then some id else none
  | settled | unknown | refused _ => none

/-- The grammar with this scope name that the event adds. -/
def adds? (scopeName : String) : Event → Option Grammar
  | added g _ => if g.scopeName = scopeName then some g else none
  | named _ _ | settled | unknown | refused _ => none

end Event

/-- The number that was bound to a name last. -/
def bound? (log : List Event) (name : String) : Option GrammarId :=
  log.findSome? (Event.binds? name)

/-- The grammar with a scope name that was added last. -/
def latest? (log : List Event) (scopeName : String) : Option Grammar :=
  log.findSome? (Event.adds? scopeName)

/-- A grammar is added if it compiles; if not, the registry stays as it is. -/
def adding (r : Registry) :
    Except Error Grammar → Except Error (GrammarId × Registry) → Event × Registry
  | .ok g, .ok (id, after) => (.added g id, after)
  | .error cause, _ | .ok _, .error cause => (.refused cause, r)

/-- Settings are added if they compile; if not, the registry stays as it is. -/
def settling (r : Registry) : Except Error Registry → Event × Registry
  | .ok after => (.settled, after)
  | .error cause => (.refused cause, r)

def perform (r : Registry) : Addition → Event × Registry
  | .source source => r.adding (Grammar.compiled source) (r.addSource source)
  | .grammar json => r.adding (Grammar.ofJson json) (r.addGrammar json)
  | .grammarFile contents => r.adding (Grammar.ofFile contents) (r.addGrammarFile contents)
  | .settings json => r.settling (r.addSettings json)
  | .settingsFile contents => r.settling (r.addSettingsFile contents)
  | .otherName name other =>
    (((r.find? name).map (Event.named other)).getD .unknown, r.addAlias name other)

/-- Makes calls one after the other, after those that are in the log already. -/
def recordFrom (log : List Event) (r : Registry) : List Addition → List Event × Registry
  | [] => (log, r)
  | call :: calls => recordFrom ((r.perform call).1 :: log) (r.perform call).2 calls

/-- Makes calls on an empty registry. -/
def record (calls : List Addition) : List Event × Registry := recordFrom [] {} calls

/-! ## What one call does -/

/-- What a call can do to a registry. -/
inductive Step (r : Registry) : Event × Registry → Prop
  | added (g : Grammar) : Step r (.added g (r.insert g).1, (r.insert g).2)
  | named {name : String} (other : String) {id : GrammarId} (found : r.find? name = some id) :
      Step r (.named other id, { r with names := r.names.insert other id })
  | settled (settings : List Settings) : Step r (.settled, { r with settings })
  | idle {event : Event} (h : event.Idle) : Step r (event, r)

section

variable {r : Registry}

theorem addSource_eq (r : Registry) (source : Source.Grammar) :
    r.addSource source = (Grammar.compiled source).map r.insert := by
  unfold addSource Grammar.compiled
  cases Grammar.ofSource source <;> rfl

theorem addGrammar_eq (r : Registry) (json : String) :
    r.addGrammar json = (Grammar.ofJson json).map r.insert := by
  unfold addGrammar Grammar.ofJson
  cases Source.Grammar.ofJson json with
  | error fault => rfl
  | ok source => exact r.addSource_eq source

theorem step_adding (compiled : Except Error Grammar) :
    Step r (r.adding compiled (compiled.map r.insert)) := by
  cases compiled with
  | error cause => exact .idle trivial
  | ok g => exact .added g

theorem step_addSettings (json : String) : Step r (r.settling (r.addSettings json)) := by
  unfold addSettings
  cases Source.Settings.ofJson json with
  | error fault => exact .idle trivial
  | ok source =>
    dsimp only [addSettingsSource]
    cases Settings.ofSource source with
    | error cause => exact .idle trivial
    | ok settings => exact .settled _

theorem step_perform (r : Registry) (call : Addition) : Step r (r.perform call) := by
  cases call with
  | source source =>
    rw [perform, addSource_eq]
    exact step_adding _
  | grammar json =>
    rw [perform, addGrammar_eq]
    exact step_adding _
  | grammarFile contents =>
    cases contents with
    | none => exact .idle trivial
    | some json =>
      rw [perform, addGrammarFile, addGrammar_eq]
      exact step_adding _
  | settings json => exact step_addSettings json
  | settingsFile contents =>
    cases contents with
    | none => exact .idle trivial
    | some json => exact step_addSettings json
  | otherName name other =>
    rw [perform, addAlias]
    cases hfound : r.find? name with
    | none => exact .idle trivial
    | some id => exact .named other hfound

end

/-! ## The tables and the log -/

/-- The tables of a registry are what the log says. -/
structure Consistent (log : List Event) (r : Registry) : Prop where
  /-- A scope name leads to the grammar that has it. -/
  scopes : ∀ n id, r.scopeNames.find? n = some id
    ↔ ∃ g, r.grammars[id]? = some g ∧ g.scopeName = n
  /-- The grammar under a number is the last one with its scope name. -/
  latest : ∀ (id : GrammarId) (g : Grammar), r.grammars[id]? = some g →
    latest? log g.scopeName = some g
  /-- A scope name has kept its number. -/
  numbers : ∀ g id, .added g id ∈ log → r.scopeNames.find? g.scopeName = some id
  /-- A name stands for the number that was bound to it last. -/
  names : ∀ n, r.names.find? n = bound? log n
  /-- There is a grammar for every name. -/
  inside : ∀ n id, r.names.find? n = some id → ∃ g, r.grammars[id]? = some g

/-- What adding a grammar does to the tables: it stands under its number, which a grammar with its
scope name had before or which is new, and its name is bound to that number. -/
structure Inserts (r : Registry) (g : Grammar) (id : GrammarId) (after : Registry) : Prop where
  grammars : ∀ i : GrammarId, after.grammars[i]? = if i = id then some g else r.grammars[i]?
  scopeNames : ∀ n, after.scopeNames.find? n
    = if n = g.scopeName then some id else r.scopeNames.find? n
  names : after.names = r.names.insert g.name id
  same : ∀ (i : GrammarId) (old : Grammar), r.grammars[i]? = some old →
    (old.scopeName = g.scopeName ↔ i = id)

section

variable {log : List Event} {r after : Registry} {g : Grammar} {id : GrammarId}

theorem consistent_empty : Consistent [] {} where
  scopes n id := by simp [NameMap.find?]
  latest id g h := by simp at h
  numbers g id h := by cases h
  names n := rfl
  inside n id h := by simp [NameMap.find?] at h

theorem Consistent.unique (h : Consistent log r) {i j : GrammarId} {g g' : Grammar}
    (hi : r.grammars[i]? = some g) (hj : r.grammars[j]? = some g')
    (heq : g.scopeName = g'.scopeName) : i = j := by
  have hi' := (h.scopes g.scopeName i).mpr ⟨g, hi, rfl⟩
  have hj' := (h.scopes g.scopeName j).mpr ⟨g', hj, heq.symm⟩
  exact Option.some.inj (hi'.symm.trans hj')

theorem Consistent.exists_of_find? (h : Consistent log r) {n : String} (hn : r.find? n = some id) :
    ∃ g, r.grammars[id]? = some g := by
  unfold find? at hn
  cases hname : r.names.find? n with
  | some id' =>
    rw [hname] at hn
    exact h.inside n id (hname.trans hn)
  | none =>
    rw [hname] at hn
    obtain ⟨g, hg, _⟩ := (h.scopes n id).mp hn
    exact ⟨g, hg⟩

/-- Both ways of adding a grammar, as a new one or in the place of another, do the same to what the
tables say. -/
theorem inserts_insert (h : Consistent log r) (g : Grammar) :
    Inserts r g (r.insert g).1 (r.insert g).2 := by
  unfold insert
  cases hscope : r.scopeNames.find? g.scopeName with
  | some id =>
    obtain ⟨old, hold, hname⟩ := (h.scopes _ _).mp hscope
    have hid := (Array.getElem?_eq_some_iff.mp hold).1
    refine ⟨fun i => ?_, fun n => ?_, rfl, fun i other hother => ?_⟩
    · rw [Array.getElem?_setIfInBounds]
      by_cases hi : i = id
      · rw [if_pos hi.symm, if_pos hid, if_pos hi]
      · rw [if_neg (Ne.symm hi), if_neg hi]
    · by_cases hn : n = g.scopeName
      · rw [if_pos hn, hn, hscope]
      · rw [if_neg hn]
    · constructor
      · exact fun heq => h.unique hother hold (heq.trans hname.symm)
      · rintro rfl
        rw [← Option.some.inj (hold.symm.trans hother), hname]
  | none =>
    refine ⟨fun i => ?_, fun n => NameMap.find?_insert_eq _ _ _ _, rfl, fun i other hother => ?_⟩
    · rw [Array.getElem?_push]
    · have hi := (Array.getElem?_eq_some_iff.mp hother).1
      constructor
      · intro heq
        have hfound := (h.scopes _ _).mpr ⟨other, hother, heq⟩
        simp [hscope] at hfound
      · exact fun heq => absurd hi (Nat.not_lt.mpr (Nat.le_of_eq heq.symm))

/-- The scope name of the added grammar has its number, and the others have theirs. -/
theorem Inserts.exists_scopeName_iff (hin : Inserts r g id after) (n : String) (i : GrammarId) :
    (∃ new, after.grammars[i]? = some new ∧ new.scopeName = n)
      ↔ if n = g.scopeName then i = id
        else ∃ old, r.grammars[i]? = some old ∧ old.scopeName = n := by
  rw [hin.grammars]
  by_cases hi : i = id
  · rw [if_pos hi]
    by_cases hn : n = g.scopeName
    · simp [hi, hn]
    · rw [if_neg hn]
      constructor
      · rintro ⟨_, heq, rfl⟩
        exact absurd (congrArg Grammar.scopeName (Option.some.inj heq)).symm hn
      · rintro ⟨old, hold, rfl⟩
        exact absurd ((hin.same i old hold).mpr hi) hn
  · rw [if_neg hi]
    by_cases hn : n = g.scopeName
    · rw [if_pos hn]
      constructor
      · rintro ⟨old, hold, hname⟩
        exact (hin.same i old hold).mp (hname.trans hn)
      · intro heq
        exact absurd heq hi
    · rw [if_neg hn]

theorem Consistent.added (h : Consistent log r) (hin : Inserts r g id after) :
    Consistent (.added g id :: log) after where
  scopes n i := by
    rw [hin.scopeNames, hin.exists_scopeName_iff]
    split
    · rw [Option.some.injEq, eq_comm]
    · exact h.scopes n i
  latest i other hother := by
    rw [hin.grammars] at hother
    by_cases hi : i = id
    · rw [if_pos hi] at hother
      cases hother
      simp [latest?, Event.adds?]
    · rw [if_neg hi] at hother
      have hne : g.scopeName ≠ other.scopeName := fun heq =>
        hi ((hin.same i other hother).mp heq.symm)
      have hlatest := h.latest i other hother
      simpa [latest?, Event.adds?, hne] using hlatest
  numbers other i hmem := by
    rw [hin.scopeNames]
    rcases List.mem_cons.mp hmem with heq | hmem
    · cases heq
      rw [if_pos rfl]
    · have hnumber := h.numbers other i hmem
      by_cases hname : other.scopeName = g.scopeName
      · obtain ⟨old, hold, hscope⟩ := (h.scopes _ _).mp hnumber
        rw [if_pos hname, (hin.same i old hold).mp (hscope.trans hname)]
      · rw [if_neg hname, hnumber]
  names n := by
    rw [hin.names, NameMap.find?_insert_eq, h.names]
    by_cases hn : n = g.name
    · simp [bound?, Event.binds?, hn]
    · simp [bound?, Event.binds?, hn, Ne.symm hn]
  inside n i hi := by
    rw [hin.names, NameMap.find?_insert_eq] at hi
    rw [hin.grammars]
    by_cases hid : i = id
    · exact ⟨g, if_pos hid⟩
    · rw [if_neg hid]
      by_cases hn : n = g.name
      · rw [if_pos hn] at hi
        exact absurd (Option.some.inj hi).symm hid
      · rw [if_neg hn] at hi
        exact h.inside n i hi

/-- What adds no grammar and binds names as it says keeps the tables consistent. -/
theorem Consistent.other (h : Consistent log r) {event : Event} {names : NameMap GrammarId}
    {settings : List Settings} (hadds : ∀ n, event.adds? n = none)
    (hnames : ∀ n, names.find? n = bound? (event :: log) n)
    (hinside : ∀ n id, names.find? n = some id → ∃ g, r.grammars[id]? = some g) :
    Consistent (event :: log) { r with names, settings } where
  scopes := h.scopes
  latest i g hg := by
    rw [latest?, List.findSome?_cons, hadds]
    exact h.latest i g hg
  numbers g i hmem := by
    rcases List.mem_cons.mp hmem with rfl | hmem
    · have hnone := hadds g.scopeName
      simp [Event.adds?] at hnone
    · exact h.numbers g i hmem
  names := hnames
  inside := hinside

/-- Every call keeps the tables consistent with the log. -/
theorem Consistent.step (h : Consistent log r) {result : Event × Registry} (hstep : Step r result) :
    Consistent (result.1 :: log) result.2 := by
  cases hstep with
  | added g => exact h.added (inserts_insert h g)
  | @named name other id found =>
    refine h.other (fun _ => rfl) (fun n => ?_) fun n i hi => ?_
    · rw [NameMap.find?_insert_eq, h.names]
      by_cases hn : n = other
      · simp [bound?, Event.binds?, hn]
      · simp [bound?, Event.binds?, hn, Ne.symm hn]
    · rw [NameMap.find?_insert_eq] at hi
      by_cases hn : n = other
      · rw [if_pos hn] at hi
        exact Option.some.inj hi ▸ h.exists_of_find? found
      · rw [if_neg hn] at hi
        exact h.inside n i hi
  | settled settings => exact h.other (fun _ => rfl) h.names h.inside
  | @idle event hidle =>
    cases event with
    | unknown | refused => exact h.other (fun _ => rfl) h.names h.inside
    | added | named | settled => exact hidle.elim

theorem consistent_recordFrom (h : Consistent log r) (calls : List Addition) :
    Consistent (recordFrom log r calls).1 (recordFrom log r calls).2 := by
  induction calls generalizing log r with
  | nil => exact h
  | cons call calls ih => exact ih (h.step (step_perform r call))

/-- The tables agree with the log after any calls. -/
theorem consistent_record (calls : List Addition) :
    Consistent (record calls).1 (record calls).2 := consistent_recordFrom consistent_empty calls

end

theorem perform_idle (r : Registry) {call : Addition} (h : (r.perform call).1.Idle) :
    (r.perform call).2 = r := by
  have hstep := step_perform r call
  generalize r.perform call = result at h hstep
  cases hstep with
  | added | named | settled => exact h.elim
  | idle => rfl

/-- **The log decides what names mean.** Scope names and numbers belong together for good, and under
a number stands the grammar that was added last with its scope name. A name means the grammar whose
number was bound to it last; a name that was never bound means the grammar with this scope name. A
call that fails, or that is about an unknown grammar, changes nothing. -/
theorem lookups_of_record (calls : List Addition) :
    let log := (record calls).1
    let r := (record calls).2
    (∀ (i j : GrammarId) (g g' : Grammar), r.grammars[i]? = some g → r.grammars[j]? = some g' →
      g.scopeName = g'.scopeName → i = j) ∧
    (∀ g id g' id', .added g id ∈ log → .added g' id' ∈ log →
      (g.scopeName = g'.scopeName ↔ id = id')) ∧
    (∀ g id, .added g id ∈ log → r.grammars[id]? = latest? log g.scopeName) ∧
    (∀ n id, bound? log n = some id → ∃ g, r.grammars[id]? = some g ∧ r.grammar? n = some g) ∧
    (∀ n, bound? log n = none → ∀ g, r.grammar? n = some g ↔ g ∈ r.grammars ∧ g.scopeName = n) ∧
    ∀ call, (r.perform call).1.Idle → (r.perform call).2 = r := by
  intro log r
  have hc : Consistent log r := consistent_record calls
  have stands {g : Grammar} {id : GrammarId} (hmem : .added g id ∈ log) :
      ∃ current, r.grammars[id]? = some current ∧ current.scopeName = g.scopeName :=
    (hc.scopes _ _).mp (hc.numbers g id hmem)
  refine ⟨fun i j g g' => hc.unique, ?numbers, ?latest, ?bound, ?unbound,
    fun call => r.perform_idle⟩
  case numbers =>
    intro g id g' id' hmem hmem'
    obtain ⟨current, hcurrent, hname⟩ := stands hmem
    obtain ⟨current', hcurrent', hname'⟩ := stands hmem'
    constructor
    · exact fun heq => hc.unique hcurrent hcurrent' (hname.trans (heq.trans hname'.symm))
    · rintro rfl
      rw [← hname, ← hname', Option.some.inj (hcurrent.symm.trans hcurrent')]
  case latest =>
    intro g id hmem
    obtain ⟨current, hcurrent, hname⟩ := stands hmem
    rw [hcurrent, ← hname, hc.latest id current hcurrent]
  case bound =>
    intro n id hbound
    have hfound := (hc.names n).trans hbound
    obtain ⟨g, hg⟩ := hc.inside n id hfound
    refine ⟨g, hg, ?_⟩
    simp [grammar?, find?, hfound, hg]
  case unbound =>
    intro n hbound g
    have hfound : r.find? n = r.scopeNames.find? n := by
      simp [find?, (hc.names n).trans hbound]
    rw [grammar?, hfound]
    constructor
    · intro hg
      obtain ⟨id, hid, hg⟩ := Option.bind_eq_some_iff.mp hg
      obtain ⟨current, hcurrent, hname⟩ := (hc.scopes n id).mp hid
      cases hcurrent.symm.trans hg
      exact ⟨Array.mem_of_getElem? hg, hname⟩
    · rintro ⟨hmem, hname⟩
      obtain ⟨id, hid⟩ := Array.getElem?_of_mem hmem
      rw [(hc.scopes n id).mpr ⟨g, hid, hname⟩]
      exact hid

end Registry

end

namespace Registry

/-- A grammar gets another name; one that does not compile and one with its scope name follow. -/
def renamedCalls : List Addition := [
  .source { name := "Old", scopeName := "text" },
  .otherName "Old" "alias",
  .otherName "Other" "Old",
  .source { name := "Alias", scopeName := "alias", rules := [{ included := some "#gone" }] },
  .source { name := "New", scopeName := "text" }]

/-- The alias was bound to the number that both grammars with the scope name have had. A name that
was never bound is looked for among the scope names. -/
theorem lookups_of_record_renamed :
    let log := (record renamedCalls).1
    let r := (record renamedCalls).2
    bound? log "alias" = some 0 ∧ (∃ g, r.grammars[0]? = some g ∧ r.grammar? "alias" = some g)
      ∧ bound? log "text" = none
      ∧ (∀ g, r.grammar? "text" = some g ↔ g ∈ r.grammars ∧ g.scopeName = "text")
      ∧ ["Old", "alias", "New", "text", "Alias"].map (fun n => (r.grammar? n).map (·.name))
        = [some "New", some "New", some "New", some "New", none] := by
  have hnames : ["Old", "alias", "New", "text", "Alias"].map
        (fun n => ((record renamedCalls).2.grammar? n).map (·.name))
      = [some "New", some "New", some "New", some "New", none] := by cbv
  intro log r
  obtain ⟨_, _, _, bound, unbound, _⟩ := lookups_of_record renamedCalls
  have halias : bound? log "alias" = some 0 := by cbv
  have htext : bound? log "text" = none := by cbv
  exact ⟨halias, bound _ _ halias, htext, unbound _ htext, hnames⟩

end Registry

end ScopedText
