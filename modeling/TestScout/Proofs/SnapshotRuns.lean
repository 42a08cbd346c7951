import TestScout.Proofs.BenchRuns
import TestScout.Proofs.FactPass
set_option autoImplicit false

namespace TestScout

namespace Assembly

variable {s : Assembly} {scope : Scope} {m : Meter}

theorem taken?_acquire (s : Assembly) (scope : Scope) (cancelled : Bool) :
    (s.acquire scope cancelled).taken? =
      some ((s.acquire scope cancelled).context?.map Context.compilation) := by
  unfold taken? context?
  cases held : s.frozen <;> simp [acquire,held]

theorem compilation_of_taken {compilation : Option Compilation} (taken : s.taken? = some compilation)
    (scope : Scope) (cancelled : Bool) :
    (s.acquire scope cancelled).context?.map Context.compilation = compilation := by
  have kept := (keeps_acquire s scope cancelled cancelled).taken taken
  rw [taken?_acquire] at kept
  exact Option.some.inj kept

theorem types_of_listed {types : List SymbolId} (listed : s.publicTypes = some types) :
    (s.types scope false m).1 = types := by
  rcases types_cases s scope false m with ⟨-,types',listed',same⟩ | ⟨fresh,-⟩
  · rw [listed] at listed'
    rw [same,Option.some.inj listed']
  · rcases fresh with all | unset
    · cases all
    · rw [listed] at unset
      cases unset

theorem types_kept (finished : (s.types scope false m).2.2.cancelled = false) :
    (s.types scope false m).2.1.publicTypes = some (s.types scope false m).1 := by
  rcases types_cases s scope false m with ⟨-,types,listed,same⟩ | ⟨-,walked⟩
  · rw [same,publicTypes_acquire]
    exact listed
  · rw [walked] at finished ⊢
    dsimp only at finished
    rw [finished]
    rfl

end Assembly

namespace Bench

variable {w : Workbench} {a : AssemblyKey} {e : AssemblyEntry} {scope : Scope}

theorem Reads.compilationOf?_eq (h : Reads w a e scope) :
    (compilationOf? a w).1 = (taken w e scope).context?.map Context.compilation := by
  unfold compilationOf?
  rw [bind_eq,h.acquire?_eq]
  rfl

theorem Reads.assemblyName?_eq (h : Reads w a e scope) :
    (assemblyName? a w).1 = (compilationOf? a w).1.bind fun c => c.graph.assemblyName := by
  rw [h.compilationOf?_eq]
  unfold assemblyName? graphOf?
  rw [bind_eq,bind_eq,h.acquire?_eq]
  dsimp only
  cases (taken w e scope).context? <;> rfl

theorem Reads.attributesNamed_eq (h : Reads w a e scope) (isTrue : e.assembly.IsTrue)
    (name : String) :
    (attributesNamed a name w).1 = match (compilationOf? a w).1 with
      | none => []
      | some c => c.graph.matching c.graph.assembly name := by
  rw [h.compilationOf?_eq,attributesNamed,h.queryAssembly_eq]
  have kept : (taken w e scope).IsTrue := (Assembly.keeps_acquire _ _ _ false).isTrue isTrue
  unfold Assembly.query
  cases held : (taken w e scope).context? with
  | none => rfl
  | some c => exact (Query.answers_matching c.graph.assembly name _ (kept c held)).1

theorem Reads.types_all_eq (h : Reads w a e scope) :
    (types a true w).1 = match (compilationOf? a w).1 with
      | none => []
      | some c => (TypeWalk.visitTrees c.graph (c.graph.admits true)
          (scope.trees (isCancelled e.token w).1)
          { meter := startMeter c.serial e.token w }).found := by
  have again : (taken w e scope).acquire scope (isCancelled e.token w).1 = taken w e scope :=
    Assembly.acquire_acquire ..
  have before := meterOf_cancelled w e.token (taken w e scope)
  rw [h.compilationOf?_eq,h.types_eq]
  simp only [Assembly.types,if_true,before,again,Assembly.collect]
  cases held : (taken w e scope).context? with
  | none => rfl
  | some c =>
    simp only [meterOf,held]
    rfl

theorem IsLive.compilationOf?_after (live : IsLive w a e) (first : Question)
    (later : List Action) :
    (compilationOf? a ((ask a first w).2.after later)).1 = (compilationOf? a w).1 := by
  obtain ⟨scope,reads⟩ := live.reads
  have entered : (acquire? a w).2.assemblies[a.index]? =
      some { e with assembly := taken w e scope } := by
    rw [reads.acquire?_eq]
    exact Workbench.entry_put reads.entered _
  have acquired := live.of_entered (w.keeps_acquire? a) entered
  obtain ⟨s,live',kept⟩ := acquired.keeps
    ((w.acquire?_keeps_ask a first).trans (Workbench.keeps_after _ later))
  obtain ⟨scope',reads'⟩ := live'.reads
  rw [reads.compilationOf?_eq,reads'.compilationOf?_eq]
  exact Assembly.compilation_of_taken (kept.taken (Assembly.taken?_acquire ..)) _ _

theorem IsLive.types_listed (live : IsLive w a e)
    (finished : (isCancelled e.token (types a false w).2).1 = false) :
    ∃ s, IsLive (types a false w).2 a { e with assembly := s } ∧
      s.publicTypes = some (types a false w).1 := by
  obtain ⟨scope,reads⟩ := live.reads
  have step := reads.types_eq false
  have kept := Workbench.keeps_perform w (.ask a (.types false))
  have after : (perform (.ask a (.types false)) w).2 = (types a false w).2 := rfl
  rw [after] at kept
  generalize taken w e scope = s at step
  have finished' : (s.types scope false (meterOf w e.token s)).2.2.cancelled = false := by
    rw [step] at finished
    exact (isCancelled_settled live.known (Assembly.types_follows ..)).symm.trans finished
  refine ⟨(s.types scope false (meterOf w e.token s)).2.1,live.of_entered kept ?_,?_⟩
  · rw [step]
    exact Workbench.entry_put (by rw [Workbench.assemblies_settled]; exact live.entered) _
  · rw [step]
    exact Assembly.types_kept finished'

theorem IsLive.types_of_listed (live : IsLive w a e) {listed : List SymbolId}
    (unchanged : e.assembly.publicTypes = some listed) : (types a false w).1 = listed := by
  obtain ⟨scope,reads⟩ := live.reads
  rw [reads.types_eq]
  refine Assembly.types_of_listed ?_
  rw [taken,Assembly.publicTypes_acquire]
  exact unchanged

end Bench

/-- However a run goes on after the first question to an assembly, the assembly reads from the same
compilation, or still from none, so that its name and its attributes stay; all types are those of the
documents in scope by then, read against that compilation. The public types stay from the first time
on that they are listed while nothing is cancelled. -/
theorem Bench.snapshot_stable (w : Workbench) (scope : ScopeKey) (token : TokenKey)
    (known : token.index < w.tokens.length)
    (homed : ∀ p, scope = .project p → p.index < w.projects.length) (earlier : List Action) :
    let a := (newAssembly scope token w).1
    let w₀ := (newAssembly scope token w).2.after earlier
    (∀ first later,
      let w₁ := (ask a first w₀).2.after later
      (compilationOf? a w₁).1 = (compilationOf? a w₀).1 ∧
      (assemblyName? a w₁).1 = (assemblyName? a w₀).1 ∧
      (∀ name, (attributesNamed a name w₁).1 = (attributesNamed a name w₀).1) ∧
      ∃ live, (scope? scope w₁).1 = some live ∧
        (types a true w₁).1 = match (compilationOf? a w₀).1 with
          | none => []
          | some c => (TypeWalk.visitTrees c.graph (c.graph.admits true)
              (live.trees (isCancelled token w₁).1) { meter := startMeter c.serial token w₁ }).found) ∧
    ∀ later,
      let listed := types a false w₀
      (isCancelled token listed.2).1 = false →
        (types a false (listed.2.after later)).1 = listed.1 := by
  intro a w₀
  obtain ⟨s,live,-⟩ := (isLive_newAssembly known homed).keeps (Workbench.keeps_after _ earlier)
  -- The entry keeps its scope and its token; only the assembly in it may change.
  have asked (first : Question) (later : List Action) :
      ∃ s', IsLive ((ask a first w₀).2.after later) a { scope, token, assembly := s' } := by
    have kept := (w₀.keeps_perform (.ask a first)).trans (Workbench.keeps_after _ later)
    obtain ⟨s',live',-⟩ := live.keeps kept
    exact ⟨s',live'⟩
  constructor
  · intro first later w₁
    have same := live.compilationOf?_after first later
    obtain ⟨scope₀,reads₀⟩ := live.reads
    obtain ⟨s₁,live₁⟩ := asked first later
    obtain ⟨scope₁,reads₁⟩ := live₁.reads
    refine ⟨same,?_,?_,scope₁,reads₁.reached,?_⟩
    · rw [reads₁.assemblyName?_eq,reads₀.assemblyName?_eq,same]
    · intro name
      rw [reads₁.attributesNamed_eq live₁.isTrue,reads₀.attributesNamed_eq live.isTrue,same]
    · rw [reads₁.types_all_eq,same]
  · intro later listed finished
    obtain ⟨s₁,live₁,kept₁⟩ := live.types_listed finished
    obtain ⟨s₂,live₂,kept₂⟩ := live₁.keeps (Workbench.keeps_after _ later)
    exact live₂.types_of_listed (kept₂.listed kept₁)

/-! The calculator, whose public types are listed before its project loses all that it had. -/

def calculatorLosses : List Action :=
  [.setCompilation ⟨0⟩ none,.removeDocument ⟨0⟩ ⟨0⟩,.dropProject ⟨0⟩,.cancel ⟨0⟩]

theorem Bench.snapshot_stable_calculator :
    let scope := ScopeKey.project ⟨0⟩
    let token : TokenKey := ⟨0⟩
    let a := (newAssembly scope token calculatorBench).1
    let listed := types a false (newAssembly scope token calculatorBench).2
    let w₁ := listed.2.after calculatorLosses
    token.index < calculatorBench.tokens.length ∧
    (∀ p, scope = .project p → p.index < calculatorBench.projects.length) ∧
    (isCancelled token listed.2).1 = false ∧
    (assemblyName? a w₁).1 = some "Tests" ∧ (types a false w₁).1 = [⟨4⟩] ∧
    (types a true w₁).1 = [] := by
  intro scope token a listed w₁
  have known : token.index < calculatorBench.tokens.length := by decide
  have homed (p : ProjectKey) (home : scope = .project p) :
      p.index < calculatorBench.projects.length := by
    have same : ScopeKey.project ⟨0⟩ = .project p := home
    cases same
    decide
  have finished : (isCancelled token listed.2).1 = false := by cbv
  obtain ⟨stays,kept⟩ := snapshot_stable calculatorBench scope token known homed []
  obtain ⟨-,name,-⟩ := stays (.types false) calculatorLosses
  refine ⟨known,homed,finished,name.trans ?_,(kept calculatorLosses finished).trans ?_,?_⟩
  · cbv
  · cbv
  · cbv

end TestScout
