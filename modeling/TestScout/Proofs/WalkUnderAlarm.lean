import TestScout.Proofs.TypeEnumeration
set_option autoImplicit false

namespace TestScout

namespace Meter

/-- The second meter is a later reading of the first: the alarm stays, and the pass is cancelled if it
was before or if the alarm was passed in between. -/
structure Follows (m later : Meter) : Prop where
  alarm : later.alarm = m.alarm
  visits : m.visits ≤ later.visits
  cancelled : later.cancelled ↔
    m.cancelled ∨ ∃ visit, m.alarm = some visit ∧ m.visits < visit ∧ visit ≤ later.visits

theorem Follows.refl (m : Meter) : m.Follows m := by
  refine ⟨rfl,Nat.le_refl _,?_⟩
  constructor
  · exact .inl
  · rintro (cancelled | ⟨visit,-,before,after⟩)
    · exact cancelled
    · omega

theorem Follows.trans {m n k : Meter} (first : m.Follows n) (second : n.Follows k) : m.Follows k := by
  refine ⟨second.alarm.trans first.alarm,Nat.le_trans first.visits second.visits,?_⟩
  rw [second.cancelled,first.cancelled,first.alarm]
  have le₁ := first.visits
  have le₂ := second.visits
  constructor
  · rintro ((cancelled | ⟨visit,set_,before,after⟩) | ⟨visit,set_,before,after⟩)
    · exact .inl cancelled
    · exact .inr ⟨visit,set_,before,by omega⟩
    · exact .inr ⟨visit,set_,by omega,after⟩
  · rintro (cancelled | ⟨visit,set_,before,after⟩)
    · exact .inl (.inl cancelled)
    · by_cases early : visit ≤ n.visits
      · exact .inl (.inr ⟨visit,set_,before,early⟩)
      · exact .inr ⟨visit,set_,by omega,after⟩

theorem follows_tick (m : Meter) : m.Follows m.tick := by
  refine ⟨rfl,Nat.le_succ _,?_⟩
  simp only [tick,Bool.or_eq_true,beq_iff_eq]
  constructor
  · rintro (cancelled | alarm)
    · exact .inl cancelled
    · exact .inr ⟨m.visits+1,alarm,by omega,by omega⟩
  · rintro (cancelled | ⟨visit,alarm,before,after⟩)
    · exact .inl cancelled
    · obtain rfl : visit = m.visits+1 := by omega
      exact .inr alarm

end Meter

namespace TypeWalk

variable {g : Graph} {admits : SymbolId → Bool}

theorem ask_follows (w : TypeWalk) (place : DocumentId × NodeId) :
    w.meter.Follows (ask g admits w place).meter := by
  unfold ask
  split
  · exact .refl _
  · dsimp only
    split
    · exact w.meter.follows_tick
    · cases (g.declaredType? place.1 place.2).filter admits with
      | none => exact w.meter.follows_tick
      | some type =>
        simp only [enter]
        split <;> exact w.meter.follows_tick

theorem foldl_ask_follows (places : List (DocumentId × NodeId)) (w : TypeWalk) :
    w.meter.Follows (places.foldl (ask g admits) w).meter := by
  induction places generalizing w with
  | nil => exact .refl _
  | cons place rest ih => exact (ask_follows w place).trans (ih _)

theorem foldl_ask_of_cancelled {w : TypeWalk} (h : w.meter.cancelled)
    (places : List (DocumentId × NodeId)) : places.foldl (ask g admits) w = w := by
  induction places with
  | nil => rfl
  | cons place rest ih => rw [List.foldl_cons,ask_of_cancelled h,ih]

theorem foldl_ask_of_alarm {m : Meter} (running : m.cancelled = false)
    (places : List (DocumentId × NodeId)) {n : Nat} (alarm : m.alarm = some (m.visits + n))
    (positive : 1 ≤ n) (within : n ≤ places.length) :
    places.foldl (ask g admits) { meter := m } =
      { meter := { m with visits := m.visits + n, cancelled := true }
        found := (admitted g admits (places.take (n-1))).eraseDups } := by
  obtain ⟨place,rest,split⟩ : ∃ place rest, places = places.take (n-1) ++ place :: rest := by
    refine ⟨places[n-1],places.drop n,?_⟩
    have later : places.drop (n-1) = places[n-1] :: places.drop n := by
      rw [List.drop_eq_getElem_cons (by omega),Nat.sub_add_cancel positive]
    rw [← later,List.take_append_drop]
  have length : (places.take (n-1)).length = n-1 := by
    rw [List.length_take]
    omega
  have before := @foldl_ask_of_silent g admits m running (places.take (n-1)) (by
    intro visit set_ late
    rw [alarm,Option.some.injEq] at set_
    omega)
  rw [length] at before
  have last : ask g admits
      { meter := { m with visits := m.visits + (n-1) }
        found := (admitted g admits (places.take (n-1))).eraseDups } place =
      { meter := { m with visits := m.visits + n, cancelled := true }
        found := (admitted g admits (places.take (n-1))).eraseDups } := by
    have next : m.visits + (n-1) + 1 = m.visits + n := by omega
    simp [ask,Meter.tick,running,alarm,next]
  rw [split,List.foldl_append,← split,before,List.foldl_cons,last]
  exact foldl_ask_of_cancelled rfl rest

end TypeWalk

open Classical in
noncomputable def Graph.openPlaces (g : Graph) (trees : List SyntaxTree) :
    List (DocumentId × NodeId) :=
  trees.flatMap fun t => (t.top.ids.filter fun node => t.IsOpen g node).map (t.document,·)

theorem Graph.places_eq_openPlaces {g : Graph} {trees : List SyntaxTree}
    (grown : ∀ t ∈ trees, t.Grown) : g.places trees = g.openPlaces trees := by
  unfold places openPlaces
  exact List.flatMap_congr fun t member => by rw [(grown t member).wellFormed.reached_eq]

theorem Scope.trees_of_cancelled (scope : Scope) : scope.trees true = [] := by
  cases scope with
  | document d home => rfl
  | project p => simp [trees,Document.tree?]

namespace Assembly

variable {a : Assembly} {scope : Scope} {m : Meter}

theorem collect_eq {c : Context} (held : a.context? = some c) (includePrivate : Bool) :
    a.collect scope includePrivate m =
      let w := (c.graph.places (scope.trees m.cancelled)).foldl
        (TypeWalk.ask c.graph (c.graph.admits includePrivate)) { meter := m }
      (w.found,w.meter) := by
  simp only [collect,held,TypeWalk.visitTrees_eq_foldl]

theorem collect_follows (a : Assembly) (scope : Scope) (includePrivate : Bool) (m : Meter) :
    m.Follows (a.collect scope includePrivate m).2 := by
  cases held : a.context? with
  | none =>
    simp only [collect,held]
    exact .refl m
  | some c =>
    rw [collect_eq held]
    exact TypeWalk.foldl_ask_follows _ { meter := m }

/-- Listing types ends in one of two ways: the public ones were listed before, or they are walked
over, and then the public ones are kept unless the pass is cancelled by now. -/
theorem types_cases (a : Assembly) (scope : Scope) (includePrivate : Bool) (m : Meter) :
    let s := a.acquire scope m.cancelled
    let walked := s.collect scope includePrivate m
    (includePrivate = false ∧ ∃ types, a.publicTypes = some types ∧
      a.types scope includePrivate m = (types,s,m)) ∨
    ((includePrivate ∨ a.publicTypes = none) ∧ a.types scope includePrivate m =
      (walked.1,if includePrivate || walked.2.cancelled then s
        else { s with publicTypes := some walked.1 },walked.2)) := by
  intro s walked
  cases includePrivate with
  | true => exact .inr ⟨.inl rfl,by simp [types,walked,s]⟩
  | false =>
    have kept : s.publicTypes = a.publicTypes := publicTypes_acquire a scope m.cancelled
    cases listed : a.publicTypes with
    | some types =>
      refine .inl ⟨rfl,types,rfl,?_⟩
      simp [Assembly.types,listed,s]
    | none =>
      refine .inr ⟨.inr rfl,?_⟩
      simp [Assembly.types,listed,s,walked]

theorem types_follows (a : Assembly) (scope : Scope) (includePrivate : Bool) (m : Meter) :
    m.Follows (a.types scope includePrivate m).2.2 := by
  rcases types_cases a scope includePrivate m with ⟨-,types,-,same⟩ | ⟨-,walked⟩
  · rw [same]
    exact .refl m
  · rw [walked]
    exact collect_follows _ scope includePrivate m

theorem types_of_unset (unset : a.publicTypes = none) (includePrivate : Bool) :
    let s := a.acquire scope m.cancelled
    let walked := s.collect scope includePrivate m
    a.types scope includePrivate m = (walked.1,if includePrivate || walked.2.cancelled then s
      else { s with publicTypes := some walked.1 },walked.2) := by
  rcases types_cases a scope includePrivate m with ⟨-,types,listed,-⟩ | ⟨-,walked⟩
  · rw [unset] at listed
    cases listed
  · exact walked

theorem types_of_cancelled (cancelled : m.cancelled) (unset : a.publicTypes = none)
    (includePrivate : Bool) :
    a.types scope includePrivate m = ([],a.acquire scope true,m) := by
  have nothing : (a.acquire scope true).collect scope includePrivate m = ([],m) := by
    cases held : (a.acquire scope true).context? with
    | none => simp only [collect,held]
    | some c =>
      rw [collect_eq held,cancelled,Scope.trees_of_cancelled]
      rfl
  rw [types_of_unset unset,cancelled,nothing,cancelled,Bool.or_true]
  rfl

theorem types_of_isQuiet {c : Context} (held : (a.acquire scope false).context? = some c)
    (quiet : m.IsQuiet) (unset : a.publicTypes = none) (includePrivate : Bool) :
    let places := c.graph.places (scope.trees false)
    (a.types scope includePrivate m).1 =
      (TypeWalk.admitted c.graph (c.graph.admits includePrivate) places).eraseDups ∧
    (a.types scope includePrivate m).2.2 = { m with visits := m.visits + places.length } := by
  intro places
  have walk := @TypeWalk.foldl_ask_of_silent c.graph (c.graph.admits includePrivate) m quiet.running
    places fun visit alarm late => absurd late (Nat.not_lt.2 (quiet.passed alarm))
  rw [types_of_unset unset,quiet.running,collect_eq held,quiet.running,walk]
  exact ⟨rfl,by simp only [quiet.running,places]⟩

/-- An alarm cuts the list short, and then no list is kept. -/
theorem types_of_alarm {c : Context} (held : (a.acquire scope false).context? = some c)
    (running : m.cancelled = false) (unset : a.publicTypes = none) {n : Nat}
    (alarm : m.alarm = some (m.visits + n)) (positive : 1 ≤ n)
    (within : n ≤ (c.graph.places (scope.trees false)).length) (includePrivate : Bool) :
    a.types scope includePrivate m =
      ((TypeWalk.admitted c.graph (c.graph.admits includePrivate)
        ((c.graph.places (scope.trees false)).take (n-1))).eraseDups,
       a.acquire scope false,{ m with visits := m.visits + n, cancelled := true }) := by
  have walk := @TypeWalk.foldl_ask_of_alarm c.graph (c.graph.admits includePrivate) m running _ n
    alarm positive within
  rw [types_of_unset unset,running,collect_eq held,running,walk,Bool.or_true]
  rfl

end Assembly

end TestScout
