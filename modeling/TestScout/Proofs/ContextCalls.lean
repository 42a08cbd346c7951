import TestScout.Assembly.Context
import TestScout.Proofs.FirstOccurrences
import TestScout.Proofs.QueryAnswers
set_option autoImplicit false

/-!
Series of questions to one context. What a context remembers changes no answer; it only saves
questions to the graph. A name is looked up by the first call that comes to it and never again, and
past the memory nothing is asked for but the usage class, once for each symbol that has someone to
inherit attributes from.
-/

namespace TestScout

inductive ContextCall where
  | typeNamed (name : String)
  | matching (symbol : SymbolId) (name : String)
  deriving DecidableEq, Repr

inductive ContextAnswer where
  | type (found : Option SymbolId)
  | attributes (found : List Applied)
  deriving Repr

namespace ContextCall

def query (g : Graph) : ContextCall → Query ContextAnswer
  | typeNamed name => do return .type (← Query.resolve g name)
  | matching symbol name => do return .attributes (← Query.matching g symbol name)

def answer (g : Graph) : ContextCall → ContextAnswer
  | typeNamed name => .type (g.typeNamed? name)
  | matching symbol name => .attributes (g.matching symbol name)

/-- The name that a call comes to resolve. A symbol without attributes is answered before that, and
so is a name that does not parse. -/
def resolves? (g : Graph) : ContextCall → Option String
  | typeNamed name => some name
  | matching symbol name =>
    if (g.effective symbol).items.isEmpty then none
    else (AttributeTypeName.parse? name).map AttributeTypeName.typeName

def inherits (g : Graph) : ContextCall → Bool
  | typeNamed _ => false
  | matching symbol _ => !(g.donors symbol).isEmpty

/-- What the graph is asked for by a call that comes behind others: the usage class, if attributes may
be inherited, and the name to resolve, unless an earlier call came to resolve it. -/
def questions (g : Graph) (earlier : List ContextCall) (call : ContextCall) : List String :=
  (if call.inherits g then [attributeUsageName] else []) ++
    (call.resolves? g).toList.filter fun name =>
      !(earlier.filterMap (resolves? g)).contains name

end ContextCall

def Context.serve (c : Context) : List ContextCall → List (ContextAnswer × List String) × Context
  | [] => ([],c)
  | call :: rest =>
    let (answer,after,asked) := c.run (call.query c.graph)
    let (served,last) := after.serve rest
    ((answer,asked) :: served,last)

namespace Memory

def names (m : Memory) : List String :=
  m.resolved.map Prod.fst

theorem known?_eq_none_iff (m : Memory) (name : String) : m.known? name = none ↔ name ∉ m.names := by
  simp only [known?,names,Option.map_eq_none_iff,List.find?_eq_none,List.mem_map,not_exists,not_and]
  constructor
  · intro absent entry member same
    exact absent entry member (beq_iff_eq.2 same)
  · intro absent entry member same
    exact absent entry member (beq_iff_eq.1 same)

def learn (g : Graph) (m : Memory) (direct : List String) (name : Option String) : Memory :=
  let new := name.toList.filter fun n => !m.names.contains n
  { resolved := m.resolved ++ new.map fun n => (n,g.typeNamed? n)
    asked := m.asked ++ (direct ++ new) }

@[simp] theorem learn_none (g : Graph) (m : Memory) (direct : List String) :
    m.learn g direct none = { m with asked := m.asked ++ direct } := by
  simp [learn]

theorem learn_learn (g : Graph) (m : Memory) (direct : List String) (name : Option String) :
    (m.learn g direct none).learn g [] name = m.learn g direct name := by
  rw [learn_none]
  simp [learn,names]

theorem IsTrueTo.learn {g : Graph} {m : Memory} (h : m.IsTrueTo g) (direct : List String)
    (name : Option String) : (m.learn g direct name).IsTrueTo g := by
  intro entry member
  rcases List.mem_append.1 member with before | new
  · exact h entry before
  · obtain ⟨n,-,rfl⟩ := List.mem_map.1 new
    rfl

end Memory

namespace Query

variable {g : Graph}

theorem bind_apply {α β : Type} (q : Query α) (next : α → Query β) (m : Memory) :
    (q >>= next) m = next (q m).1 (q m).2 :=
  rfl

theorem resolve_eq {m : Memory} (h : m.IsTrueTo g) (name : String) :
    resolve g name m = (g.typeNamed? name,m.learn g [] (some name)) := by
  unfold resolve
  cases known : m.known? name with
  | some answer =>
    have member : name ∈ m.names := by
      by_contra absent
      rw [(m.known?_eq_none_iff name).2 absent] at known
      cases known
    simp [Memory.learn,member,h.known known]
  | none =>
    have absent := (m.known?_eq_none_iff name).1 known
    simp [ask,Memory.learn,absent]

theorem effective_eq (m : Memory) (id : SymbolId) :
    effective g id m = (g.effective id,
      m.learn g (if (g.donors id).isEmpty then [] else [attributeUsageName]) none) := by
  rw [Memory.learn_none]
  unfold effective
  by_cases alone : g.donors id = []
  · have bare : (g.donors id).isEmpty := List.isEmpty_iff.2 alone
    rw [if_pos bare,if_pos bare,effectiveUnder_of_no_donors alone,List.append_nil]
    rfl
  · have inherits : ¬(g.donors id).isEmpty := mt List.isEmpty_iff.1 alone
    rw [if_neg inherits,if_neg inherits]
    rfl

theorem matching_snd {m : Memory} (h : m.IsTrueTo g) (symbol : SymbolId) (name : String) :
    (matching g symbol name m).2 =
      m.learn g (if (g.donors symbol).isEmpty then [] else [attributeUsageName])
        ((ContextCall.matching symbol name).resolves? g) := by
  generalize hd : (if (g.donors symbol).isEmpty then [] else [attributeUsageName]) = direct
  have first := effective_eq (g := g) m symbol
  rw [hd] at first
  unfold matching
  rw [bind_apply,first]
  dsimp only [ContextCall.resolves?]
  by_cases bare : (g.effective symbol).items.isEmpty
  · rw [if_pos bare,if_pos bare]
    rfl
  · rw [if_neg bare,if_neg bare]
    cases AttributeTypeName.parse? name with
    | none => rfl
    | some parsed =>
      dsimp only [Option.map_some]
      rw [bind_apply,resolve_eq (h.learn direct none),Memory.learn_learn]
      cases g.typeNamed? parsed.typeName <;> rfl

theorem call_eq {m : Memory} (h : m.IsTrueTo g) (call : ContextCall) :
    call.query g m = (call.answer g,
      m.learn g (if call.inherits g then [attributeUsageName] else []) (call.resolves? g)) := by
  cases call with
  | typeNamed name =>
    have step : (ContextCall.typeNamed name).query g m =
        (.type (resolve g name m).1,(resolve g name m).2) := rfl
    rw [step,resolve_eq h]
    rfl
  | matching symbol name =>
    have step : (ContextCall.matching symbol name).query g m =
        (.attributes (matching g symbol name m).1,(matching g symbol name m).2) := rfl
    rw [step,(answers_matching symbol name m h).1,matching_snd h]
    cases bare : (g.donors symbol).isEmpty <;> simp [ContextCall.answer,ContextCall.inherits,bare]

end Query

namespace Context

/-- A context that has served some calls remembers true answers to the names that they resolved. -/
structure Remembers (c : Context) (earlier : List ContextCall) : Prop where
  isTrue : Memory.IsTrueTo c.graph { resolved := c.resolved }
  names : c.resolved.map Prod.fst = (earlier.filterMap (ContextCall.resolves? c.graph)).eraseDups

theorem Remembers.contains {c : Context} {earlier : List ContextCall} (h : c.Remembers earlier)
    (name : String) : (Memory.names { resolved := c.resolved }).contains name =
      (earlier.filterMap (ContextCall.resolves? c.graph)).contains name := by
  rw [Bool.eq_iff_iff,List.contains_iff_mem,List.contains_iff_mem,Memory.names,h.names,
    List.mem_eraseDups]

theorem Remembers.run {c : Context} {earlier : List ContextCall} (h : c.Remembers earlier)
    (call : ContextCall) :
    ∃ after : Context, c.run (call.query c.graph) =
      (call.answer c.graph,after,call.questions c.graph earlier) ∧
      after.compilation = c.compilation ∧ after.Remembers (earlier ++ [call]) := by
  have called := Query.call_eq h.isTrue call
  have isTrue := h.isTrue.learn (if call.inherits c.graph then [attributeUsageName] else [])
    (call.resolves? c.graph)
  generalize learned : Memory.learn c.graph { resolved := c.resolved } _ _ = m at called isTrue
  refine ⟨{ c with resolved := m.resolved },?_,rfl,isTrue,?_⟩
  · have asked : m.asked = call.questions c.graph earlier := by
      simp only [← learned,Memory.learn,h.contains,List.nil_append]
      rfl
    simp only [Context.run,called,asked]
  · have graph : ({ c with resolved := m.resolved } : Context).graph = c.graph := rfl
    rw [graph,List.filterMap_append,← learned]
    cases name : call.resolves? c.graph with
    | none => simp [Memory.learn,h.names,name]
    | some n =>
      have single : [call].filterMap (ContextCall.resolves? c.graph) = [n] := by simp [name]
      rw [single,eraseDups_concat,← h.names]
      simp only [Memory.learn,Option.toList_some,List.filter_singleton,h.contains]
      by_cases member : n ∈ earlier.filterMap (ContextCall.resolves? c.graph)
      · simp [member]
      · simp [member]

theorem Remembers.serve {c : Context} {earlier : List ContextCall} (h : c.Remembers earlier)
    (calls : List ContextCall) :
    (c.serve calls).1 = calls.mapIdx (fun i call =>
      (call.answer c.graph,call.questions c.graph (earlier ++ calls.take i))) ∧
    (c.serve calls).2.compilation = c.compilation ∧
    (c.serve calls).2.Remembers (earlier ++ calls) := by
  -- The induction is on the calls still to come; those before them are what the context remembers.
  induction calls generalizing c earlier with
  | nil => exact ⟨rfl,rfl,by simpa [Context.serve] using h⟩
  | cons call rest ih =>
    obtain ⟨after,ran,same,later⟩ := h.run call
    have graph : after.graph = c.graph := congrArg Compilation.graph same
    obtain ⟨served,compilation,last⟩ := ih later
    rw [graph] at served
    have step : c.serve (call :: rest) =
        ((call.answer c.graph,call.questions c.graph earlier) :: (after.serve rest).1,
          (after.serve rest).2) := by
      simp only [Context.serve,ran]
    rw [step]
    refine ⟨?_,compilation.trans same,?_⟩
    · rw [served,List.mapIdx_cons]
      simp
    · simpa using last

theorem remembers_fresh (c : Compilation) : Remembers ⟨c,[]⟩ [] :=
  ⟨Memory.isTrueTo_empty c.graph [],rfl⟩

end Context

namespace ContextCall

variable {g : Graph}

theorem count_questions (earlier : List ContextCall) (call : ContextCall) (name : String) :
    (call.questions g earlier).count name =
      (if call.resolves? g = some name ∧ name ∉ earlier.filterMap (resolves? g) then 1 else 0) +
        if name = attributeUsageName ∧ call.inherits g then 1 else 0 := by
  have usage : (if call.inherits g then [attributeUsageName] else []).count name =
      if name = attributeUsageName ∧ call.inherits g then 1 else 0 := by
    cases call.inherits g with
    | false => simp
    | true => simp [List.count_singleton,@eq_comm _ attributeUsageName]
  rw [questions,List.count_append,usage,Nat.add_comm]
  congr 1
  cases call.resolves? g with
  | none => simp
  | some n =>
    simp only [Option.toList_some,List.filter_singleton,Option.some.injEq]
    by_cases same : n = name
    · subst same
      by_cases member : n ∈ earlier.filterMap (resolves? g) <;> simp [member]
    · cases (earlier.filterMap (resolves? g)).contains n <;> simp [same]

theorem count_asked (earlier calls : List ContextCall) (name : String) :
    ((calls.mapIdx fun i call => call.questions g (earlier ++ calls.take i)).flatten).count name =
      (if name ∈ calls.filterMap (resolves? g) ∧ name ∉ earlier.filterMap (resolves? g) then 1
        else 0) + if name = attributeUsageName then calls.countP (inherits g) else 0 := by
  induction calls generalizing earlier with
  | nil => simp
  | cons call rest ih =>
    have later := ih (earlier ++ [call])
    simp only [List.append_assoc,List.singleton_append] at later
    have before : name ∈ (earlier ++ [call]).filterMap (resolves? g) ↔
        name ∈ earlier.filterMap (resolves? g) ∨ call.resolves? g = some name := by
      simp only [List.filterMap_append,List.mem_append,List.mem_filterMap,List.mem_singleton,
        exists_eq_left]
    have here : name ∈ (call :: rest).filterMap (resolves? g) ↔
        call.resolves? g = some name ∨ name ∈ rest.filterMap (resolves? g) := by
      simp only [List.mem_filterMap,List.mem_cons,exists_eq_or_imp]
    simp only [List.mapIdx_cons,List.take_zero,List.append_nil,List.take_succ_cons,
      List.flatten_cons,List.count_append,count_questions,later,List.countP_cons,before,here]
    have usage (n : Nat) : ((if name = attributeUsageName ∧ call.inherits g then 1 else 0) +
        if name = attributeUsageName then n else 0) =
          if name = attributeUsageName then n + (if call.inherits g then 1 else 0) else 0 := by
      by_cases same : name = attributeUsageName <;> simp [same,Nat.add_comm]
    -- This call is the first to resolve the name, or a later one is, but never both.
    have first (now known inRest : Prop) [Decidable now] [Decidable known] [Decidable inRest] :
        ((if now ∧ ¬known then 1 else 0) + if inRest ∧ ¬(known ∨ now) then 1 else 0) =
          if (now ∨ inRest) ∧ ¬known then 1 else 0 := by
      by_cases now <;> by_cases known <;> simp [*]
    rw [← usage,← first]
    omega

end ContextCall

/-- A context answers each call as a fresh context would, whatever came before. On account of a call
the graph is asked for the usage class, if the call gathers attributes that may be inherited, and
for the name that the call comes to resolve, if no earlier call came to resolve it. So each name that is
resolved is looked up once, and the context remembers as many names as were resolved. -/
theorem Context.serve_fresh (c : Compilation) (calls : List ContextCall) :
    let fresh : Context := ⟨c,[]⟩
    let served := fresh.serve calls
    let resolved := calls.filterMap (ContextCall.resolves? c.graph)
    served.1 = calls.mapIdx (fun i call =>
      ((fresh.run (call.query c.graph)).1,call.questions c.graph (calls.take i))) ∧
    (∀ name, (served.1.flatMap Prod.snd).count name =
      (if name ∈ resolved then 1 else 0) +
        if name = attributeUsageName then calls.countP (ContextCall.inherits c.graph) else 0) ∧
    served.2.resolved.length = resolved.eraseDups.length := by
  intro fresh served resolved
  obtain ⟨answers,same,last⟩ := (remembers_fresh c).serve calls
  have graph : served.2.graph = c.graph := congrArg Compilation.graph same
  refine ⟨?_,?_,?_⟩
  · have alone (call : ContextCall) :
        (fresh.run (call.query c.graph)).1 = call.answer c.graph := by
      obtain ⟨after,ran,-⟩ := (remembers_fresh c).run call
      exact congrArg Prod.fst ran
    simp only [alone]
    exact answers
  · intro name
    have counted := ContextCall.count_asked (g := c.graph) [] calls name
    have asked : served.1.map Prod.snd =
        calls.mapIdx fun i call => call.questions c.graph ([] ++ calls.take i) := by
      rw [answers]
      refine List.ext_getElem? fun i => ?_
      rw [List.getElem?_map,List.getElem?_mapIdx,List.getElem?_mapIdx,Option.map_map]
      rfl
    rw [List.flatMap_def,asked,counted]
    simp [resolved]
  · have length := congrArg List.length last.names
    rw [List.length_map,graph] at length
    exact length

end TestScout
