import TestScout.Proofs.BenchEffects
import TestScout.Proofs.QueryAnswers
set_option autoImplicit false

/-!
Runs on the workbench: projects change, tokens are cancelled and assemblies are asked, in any order.
An assembly that has taken its compilation keeps it, a list of public types that was kept once stays,
and none is kept under a cancelled token.
-/

namespace TestScout

inductive Question where
  | context
  | name
  | attributes (name : String)
  | types (includePrivate : Bool)
  deriving DecidableEq, Repr

inductive Action where
  | setCompilation (project : ProjectKey) (compilation : Option Compilation)
  | addDocument (project : ProjectKey) (tree : SyntaxTree)
  | addUnparsed (project : ProjectKey) (id : DocumentId) (path : String)
  | removeDocument (project : ProjectKey) (id : DocumentId)
  | dropProject (project : ProjectKey)
  | cancel (token : TokenKey)
  | setAlarm (serial visit : Nat) (token : TokenKey)
  | ask (assembly : AssemblyKey) (question : Question)
  deriving Repr

namespace Bench

def attributesNamed (a : AssemblyKey) (name : String) : Bench (List Applied) :=
  queryAssembly a (fun g => Query.matching g g.assembly name) []

def compilationOf? (a : AssemblyKey) : Bench (Option Compilation) := do
  match ← acquire? a with
  | none => return none
  | some (assembly,_,_) => return assembly.context?.map Context.compilation

def ask (a : AssemblyKey) : Question → Bench Unit
  | .context => do let _ ← contextOf? a
  | .name => do let _ ← assemblyName? a
  | .attributes name => do let _ ← attributesNamed a name
  | .types includePrivate => do let _ ← types a includePrivate

def perform : Action → Bench Unit
  | .setCompilation p compilation => modifyProject p fun q => { q with compilation }
  | .addDocument p tree => modifyProject p fun q => q.add (Document.ofTree tree)
  | .addUnparsed p id path => modifyProject p fun q => q.add { id, path, tree := none }
  | .removeDocument p id => modifyProject p fun q => q.remove id
  | .dropProject p => closeProject p
  | .cancel t => cancel t
  | .setAlarm serial visit t => setAlarm serial visit t
  | .ask a question => ask a question

end Bench

def Workbench.after (w : Workbench) (actions : List Action) : Workbench :=
  actions.foldl (fun w action => (Bench.perform action w).2) w

namespace Assembly

variable {s s' s'' : Assembly} {cancelled : Bool}

def taken? (s : Assembly) : Option (Option Compilation) :=
  s.frozen.map fun held => held.map Context.compilation

def IsTrue (s : Assembly) : Prop :=
  ∀ c, s.context? = some c → Memory.IsTrueTo c.graph { resolved := c.resolved }

/-- What an assembly keeps while it is asked under a token that is cancelled or not. -/
structure Keeps (cancelled : Bool) (s s' : Assembly) : Prop where
  taken {compilation : Option Compilation} :
    s.taken? = some compilation → s'.taken? = some compilation
  listed {types : List SymbolId} : s.publicTypes = some types → s'.publicTypes = some types
  unlisted : cancelled → s.publicTypes = none → s'.publicTypes = none
  isTrue : s.IsTrue → s'.IsTrue

theorem Keeps.refl (cancelled : Bool) (s : Assembly) : s.Keeps cancelled s :=
  ⟨id,id,fun _ => id,id⟩

theorem Keeps.trans {later : Bool} (first : s.Keeps cancelled s') (second : s'.Keeps later s'')
    (still : cancelled → later) : s.Keeps cancelled s'' where
  taken := fun h => second.taken (first.taken h)
  listed := fun h => second.listed (first.listed h)
  unlisted := fun h unset => second.unlisted (still h) (first.unlisted h unset)
  isTrue := fun h => second.isTrue (first.isTrue h)

theorem taken?_of_context? {c : Context} (held : s.context? = some c) :
    s.taken? = some (some c.compilation) := by
  have frozen : s.frozen = some (some c) := Option.join_eq_some_iff.1 held
  rw [taken?,frozen]
  rfl

theorem keeps_acquire (s : Assembly) (scope : Scope) (stopped cancelled : Bool) :
    s.Keeps cancelled (s.acquire scope stopped) := by
  cases held : s.frozen with
  | some context =>
    have same : s.acquire scope stopped = s := by simp [acquire,held]
    rw [same]
    exact .refl _ _
  | none =>
    have untaken : s.taken? = none := by simp [taken?,held]
    refine ⟨?_,?_,?_,?_⟩
    · intro compilation taken
      rw [untaken] at taken
      cases taken
    · intro types listed
      rw [publicTypes_acquire,listed]
    · intro _ unset
      rw [publicTypes_acquire,unset]
    · intro _ c
      simp only [acquire,held,context?,Option.join_some,Option.map_eq_some_iff]
      rintro ⟨compilation,-,rfl⟩
      exact Memory.isTrueTo_empty compilation.graph []

theorem keeps_types (s : Assembly) (scope : Scope) (includePrivate : Bool) (m : Meter) :
    s.Keeps m.cancelled (s.types scope includePrivate m).2.1 := by
  have acquired := keeps_acquire s scope m.cancelled m.cancelled
  rcases types_cases s scope includePrivate m with ⟨-,types,-,same⟩ | ⟨fresh,walked⟩
  · rw [same]
    exact acquired
  · rw [walked]
    have follows := collect_follows (s.acquire scope m.cancelled) scope includePrivate m
    dsimp only
    split
    · exact acquired
    case isFalse unkept =>
      simp only [Bool.or_eq_true,not_or,Bool.not_eq_true] at unkept
      refine ⟨acquired.taken,?_,?_,acquired.isTrue⟩
      · intro types listed
        rcases fresh with all | unset
        · rw [unkept.1] at all
          cases all
        · rw [unset] at listed
          cases listed
      · intro cancelled
        rw [follows.cancelled.2 (.inl cancelled)] at unkept
        exact absurd unkept.2 Bool.noConfusion

theorem keeps_query (s : Assembly) {α : Type} {q : Graph → Query α} {answer : Graph → α}
    (answers : ∀ g, Query.Answers g (q g) (answer g)) (otherwise : α) (cancelled : Bool) :
    s.Keeps cancelled (s.query q otherwise).2.1 := by
  unfold query
  cases held : s.context? with
  | none => exact .refl _ _
  | some c =>
    refine ⟨?_,id,fun _ => id,?_⟩
    · intro compilation taken
      rw [taken?_of_context? held] at taken
      exact taken
    · intro isTrue after same
      have before := isTrue c held
      obtain rfl := Option.some.inj same
      exact (answers c.graph _ before).2

end Assembly

namespace Workbench

variable {w w' w'' : Workbench} {a : AssemblyKey} {e : AssemblyEntry}

/-- What stays on the workbench while a run goes on. -/
structure Keeps (w w' : Workbench) : Prop where
  tokens : w'.tokens.length = w.tokens.length
  projects : w'.projects.length = w.projects.length
  cancelled {t : TokenKey} : (Bench.isCancelled t w).1 → (Bench.isCancelled t w').1
  entries {a : AssemblyKey} {e : AssemblyEntry} : w.assemblies[a.index]? = some e →
    ∃ s, w'.assemblies[a.index]? = some { e with assembly := s } ∧
      e.assembly.Keeps (Bench.isCancelled e.token w).1 s

theorem keeps_of_assemblies (tokens : w'.tokens.length = w.tokens.length)
    (projects : w'.projects.length = w.projects.length)
    (cancelled : ∀ t, (Bench.isCancelled t w).1 → (Bench.isCancelled t w').1)
    (assemblies : w'.assemblies = w.assemblies) : w.Keeps w' where
  tokens := tokens
  projects := projects
  cancelled := cancelled _
  entries := fun {_ e} entered => ⟨e.assembly,by rw [assemblies,entered],.refl _ _⟩

theorem Keeps.refl (w : Workbench) : w.Keeps w :=
  keeps_of_assemblies rfl rfl (fun _ => id) rfl

theorem Keeps.trans (first : w.Keeps w') (second : w'.Keeps w'') : w.Keeps w'' where
  tokens := second.tokens.trans first.tokens
  projects := second.projects.trans first.projects
  cancelled := fun h => second.cancelled (first.cancelled h)
  entries := by
    intro a e entered
    obtain ⟨s,entered',kept⟩ := first.entries entered
    obtain ⟨s',entered'',kept'⟩ := second.entries entered'
    exact ⟨s',entered'',kept.trans kept' first.cancelled⟩

theorem keeps_put (entered : w.assemblies[a.index]? = some e) {s : Assembly}
    (kept : e.assembly.Keeps (Bench.isCancelled e.token w).1 s) : w.Keeps (w.put a s) where
  tokens := rfl
  projects := rfl
  cancelled := id
  entries := by
    intro b f entered'
    by_cases same : a.index = b.index
    · rw [← same,entered] at entered'
      obtain rfl := Option.some.inj entered'
      rw [← same]
      exact ⟨s,entry_put entered s,kept⟩
    · refine ⟨f.assembly,?_,.refl _ _⟩
      rw [put,List.getElem?_modify_ne _ _ same]
      exact entered'

theorem cancelled_set (t u : TokenKey) (h : (Bench.isCancelled t w).1) :
    (Bench.isCancelled t { w with tokens := w.tokens.set u.index true }).1 := by
  simp only [Bench.isCancelled_eq,List.getElem?_set] at h ⊢
  split
  · split <;> simp_all
  · exact h

theorem keeps_cancel (w : Workbench) (u : TokenKey) :
    w.Keeps { w with tokens := w.tokens.set u.index true } :=
  keeps_of_assemblies (List.length_set ..) rfl (fun t h => cancelled_set t u h) rfl

theorem keeps_journals (w : Workbench) (journals : List Journal) : w.Keeps { w with journals } :=
  keeps_of_assemblies rfl rfl (fun _ => id) rfl

theorem keeps_settled (w : Workbench) (s : Assembly) (visits : Nat) :
    w.Keeps (w.settled s visits) := by
  unfold settled
  cases s.context? with
  | none => exact .refl w
  | some c =>
    have counted := keeps_journals w
      (w.journals.modify c.compilation.serial fun j => { j with visits })
    dsimp only [recorded]
    cases w.rung? c.compilation.serial visits with
    | none => exact counted
    | some token => exact counted.trans (keeps_cancel _ token)

theorem keeps_noted (w : Workbench) (s : Assembly) (asked : List String) :
    w.Keeps (w.noted s asked) := by
  unfold noted
  cases s.context? with
  | none => exact .refl w
  | some c => exact keeps_journals w _

theorem keeps_modifyProject (w : Workbench) (p : ProjectKey) (change : Project → Project) :
    w.Keeps (Bench.modifyProject p change w).2 :=
  keeps_of_assemblies rfl (List.length_modify ..) (fun _ => id) rfl

theorem keeps_acquire? (w : Workbench) (a : AssemblyKey) : w.Keeps (Bench.acquire? a w).2 := by
  rcases Bench.acquire?_cases w a with ⟨e,scope,reads⟩ | unread
  · rw [reads.acquire?_eq]
    exact keeps_put reads.entered (Assembly.keeps_acquire ..)
  · rw [unread]
    exact .refl w

theorem acquire?_keeps_types (w : Workbench) (a : AssemblyKey) (includePrivate : Bool) :
    (Bench.acquire? a w).2.Keeps (Bench.types a includePrivate w).2 := by
  rcases Bench.acquire?_cases w a with ⟨e,scope,reads⟩ | unread
  · have kept := Assembly.keeps_types (Bench.taken w e scope) scope includePrivate
      (Bench.meterOf w e.token (Bench.taken w e scope))
    rw [Bench.meterOf_cancelled] at kept
    rw [reads.acquire?_eq,reads.types_eq,← settled_put]
    dsimp only
    rw [← put_put w a (Bench.taken w e scope) (Assembly.types _ _ _ _).2.1]
    exact (keeps_put (entry_put reads.entered (Bench.taken w e scope)) kept).trans (keeps_settled ..)
  · rw [Bench.types_of_unread unread,unread]
    exact .refl w

theorem acquire?_keeps_queryAssembly {α : Type} {q : Graph → Query α} {answer : Graph → α}
    (answers : ∀ g, Query.Answers g (q g) (answer g)) (w : Workbench) (a : AssemblyKey)
    (otherwise : α) : (Bench.acquire? a w).2.Keeps (Bench.queryAssembly a q otherwise w).2 := by
  rcases Bench.acquire?_cases w a with ⟨e,scope,reads⟩ | unread
  · have kept := Assembly.keeps_query (Bench.taken w e scope) answers otherwise
      (Bench.isCancelled e.token w).1
    rw [reads.acquire?_eq,reads.queryAssembly_eq]
    dsimp only
    rw [← put_put w a (Bench.taken w e scope) (Assembly.query _ _ _).2.1]
    exact (keeps_put (entry_put reads.entered (Bench.taken w e scope)) kept).trans (keeps_noted ..)
  · rw [Bench.queryAssembly_of_unread unread,unread]
    exact .refl w

theorem acquire?_keeps_ask (w : Workbench) (a : AssemblyKey) (question : Question) :
    (Bench.acquire? a w).2.Keeps (Bench.ask a question w).2 := by
  cases question with
  | context =>
    have same : (Bench.ask a .context w).2 = (Bench.acquire? a w).2 := by
      simp only [Bench.ask,Bench.contextOf?,Bench.bind_eq]
      cases (Bench.acquire? a w).1 <;> rfl
    rw [same]
    exact .refl _
  | name =>
    have same : (Bench.ask a .name w).2 = (Bench.acquire? a w).2 := by
      simp only [Bench.ask,Bench.assemblyName?,Bench.graphOf?,Bench.bind_eq]
      cases (Bench.acquire? a w).1 <;> rfl
    rw [same]
    exact .refl _
  | attributes name =>
    exact acquire?_keeps_queryAssembly (fun g => Query.answers_matching g.assembly name) w a []
  | types includePrivate => exact acquire?_keeps_types w a includePrivate

theorem keeps_perform (w : Workbench) (action : Action) : w.Keeps (Bench.perform action w).2 := by
  cases action with
  | setCompilation p c => exact keeps_modifyProject w p _
  | addDocument p tree => exact keeps_modifyProject w p _
  | addUnparsed p id path => exact keeps_modifyProject w p _
  | removeDocument p id => exact keeps_modifyProject w p _
  | dropProject p => exact keeps_of_assemblies rfl (List.length_modify ..) (fun _ => id) rfl
  | cancel t => exact keeps_cancel w t
  | setAlarm serial visit t => exact keeps_journals w _
  | ask a question => exact (keeps_acquire? w a).trans (acquire?_keeps_ask w a question)

theorem keeps_after (w : Workbench) (actions : List Action) : w.Keeps (w.after actions) := by
  induction actions generalizing w with
  | nil => exact .refl w
  | cons action rest ih => exact (keeps_perform w action).trans (ih _)

end Workbench

namespace Bench

variable {w w' : Workbench} {a : AssemblyKey} {e : AssemblyEntry}

structure IsLive (w : Workbench) (a : AssemblyKey) (e : AssemblyEntry) : Prop where
  entered : w.assemblies[a.index]? = some e
  isOpen : e.isOpen
  known : e.token.index < w.tokens.length
  homed {p : ProjectKey} : e.scope = .project p → p.index < w.projects.length
  isTrue : e.assembly.IsTrue

theorem isLive_newAssembly {scope : ScopeKey} {token : TokenKey} (known : token.index < w.tokens.length)
    (homed : ∀ p, scope = .project p → p.index < w.projects.length) :
    IsLive (newAssembly scope token w).2 (newAssembly scope token w).1 { scope, token } where
  entered := List.getElem?_concat_length
  isOpen := rfl
  known := known
  homed := homed _
  isTrue := fun c held => absurd held (Option.some_ne_none c).symm

theorem IsLive.keeps (live : IsLive w a e) (kept : w.Keeps w') :
    ∃ s, IsLive w' a { e with assembly := s } ∧
      e.assembly.Keeps (isCancelled e.token w).1 s := by
  obtain ⟨s,entered,stays⟩ := kept.entries live.entered
  refine ⟨s,⟨entered,live.isOpen,?_,?_,stays.isTrue live.isTrue⟩,stays⟩
  · rw [kept.tokens]
    exact live.known
  · intro p home
    rw [kept.projects]
    exact live.homed home

theorem IsLive.of_entered (live : IsLive w a e) (kept : w.Keeps w') {s : Assembly}
    (entered : w'.assemblies[a.index]? = some { e with assembly := s }) :
    IsLive w' a { e with assembly := s } := by
  obtain ⟨s',live',-⟩ := live.keeps kept
  have same := live'.entered
  rw [entered,Option.some.injEq] at same
  rw [same]
  exact live'

/-- An open assembly never loses its scope: it keeps its own project within reach. -/
theorem IsLive.reads (live : IsLive w a e) : ∃ scope, Reads w a e scope := by
  have reached : ∃ scope, (scope? e.scope w).1 = some scope := by
    cases home : e.scope with
    | document d p => exact ⟨_,rfl⟩
    | project p =>
      have inside := live.homed home
      have isKept : (w.assemblies.any fun b => b.isOpen && b.scope == .project p) = true := by
        rw [List.any_eq_true]
        exact ⟨e,List.mem_of_getElem? live.entered,by simp [live.isOpen,home]⟩
      have found : (liveProject? p w).1 = some w.projects[p.index].project := by
        rw [liveProject?_eq,isKept,List.getElem?_eq_getElem inside]
        simp
      exact ⟨_,congrArg (Option.map Scope.project) found⟩
  obtain ⟨scope,reach⟩ := reached
  exact ⟨scope,live.entered,reach⟩

end Bench

end TestScout
