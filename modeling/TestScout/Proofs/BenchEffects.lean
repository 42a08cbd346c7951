import TestScout.Proofs.BenchAnswers
import TestScout.Proofs.WalkUnderAlarm
set_option autoImplicit false

namespace TestScout

namespace Workbench

def put (w : Workbench) (a : AssemblyKey) (s : Assembly) : Workbench :=
  { w with assemblies := w.assemblies.modify a.index fun e => { e with assembly := s } }

/-- The workbench after a walk over an assembly. Without a context nothing is counted. -/
def settled (w : Workbench) (s : Assembly) (visits : Nat) : Workbench :=
  match s.context? with
  | none => w
  | some c => w.recorded c.compilation.serial visits

def noted (w : Workbench) (s : Assembly) (asked : List String) : Workbench :=
  match s.context? with
  | none => w
  | some c => { w with
      journals := w.journals.modify c.compilation.serial fun j => { j with asked := j.asked ++ asked } }

variable {w : Workbench} {a : AssemblyKey} {e : AssemblyEntry}

@[simp] theorem put_put (w : Workbench) (a : AssemblyKey) (s s' : Assembly) :
    (w.put a s).put a s' = w.put a s' := by
  simp only [put,List.modify_modify_eq]
  rfl

theorem entry_put (entered : w.assemblies[a.index]? = some e) (s : Assembly) :
    (w.put a s).assemblies[a.index]? = some { e with assembly := s } := by
  simp [put,entered]

theorem settled_put (w : Workbench) (a : AssemblyKey) (s s' : Assembly) (visits : Nat) :
    (w.put a s').settled s visits = (w.settled s visits).put a s' := by
  unfold settled
  cases s.context? <;> rfl

@[simp] theorem assemblies_settled (w : Workbench) (s : Assembly) (visits : Nat) :
    (w.settled s visits).assemblies = w.assemblies := by
  unfold settled
  cases s.context? <;> rfl

theorem visits_settled {s : Assembly} {c : Context} (held : s.context? = some c)
    (entered : c.compilation.serial < w.journals.length) (visits : Nat) :
    (w.settled s visits).visits c.compilation.serial = visits := by
  simp [settled,held,recorded,Workbench.visits,entered]

end Workbench

namespace Bench

def meterOf (w : Workbench) (t : TokenKey) (s : Assembly) : Meter :=
  match s.context? with
  | none => { cancelled := (isCancelled t w).1 }
  | some c => startMeter c.compilation.serial t w

@[simp] theorem meterOf_cancelled (w : Workbench) (t : TokenKey) (s : Assembly) :
    (meterOf w t s).cancelled = (isCancelled t w).1 := by
  unfold meterOf
  cases s.context? with
  | none => rfl
  | some c => exact startMeter_cancelled _ t w

structure Reads (w : Workbench) (a : AssemblyKey) (e : AssemblyEntry) (scope : Scope) : Prop where
  entered : w.assemblies[a.index]? = some e
  reached : (scope? e.scope w).1 = some scope

variable {w : Workbench} {a : AssemblyKey} {e : AssemblyEntry} {scope : Scope}

def taken (w : Workbench) (e : AssemblyEntry) (scope : Scope) : Assembly :=
  e.assembly.acquire scope (isCancelled e.token w).1

theorem Reads.acquire?_eq (h : Reads w a e scope) :
    acquire? a w = (some (taken w e scope,scope,e.token),w.put a (taken w e scope)) := by
  unfold acquire?
  have entry : assembly? a w = (some e,w) := congrArg (·,w) h.entered
  have reach : scope? e.scope w = (some scope,w) := Prod.ext h.reached (scope?_snd e.scope w)
  rw [bind_eq,entry]
  dsimp only
  rw [bind_eq,reach]
  rfl

theorem acquire?_cases (w : Workbench) (a : AssemblyKey) :
    (∃ e scope, Reads w a e scope) ∨ acquire? a w = (none,w) := by
  unfold acquire?
  cases entry : w.assemblies[a.index]? with
  | none =>
    have missing : assembly? a w = (none,w) := congrArg (·,w) entry
    rw [bind_eq,missing]
    exact .inr rfl
  | some e =>
    have present : assembly? a w = (some e,w) := congrArg (·,w) entry
    rw [bind_eq,present]
    dsimp only
    rw [bind_eq]
    cases reach : (scope? e.scope w).1 with
    | none =>
      rw [scope?_snd]
      exact .inr rfl
    | some scope => exact .inl ⟨e,scope,entry,reach⟩

theorem Reads.walk?_eq (h : Reads w a e scope) {α : Type}
    (walk : Assembly → Scope → Meter → α × Meter) :
    let s := taken w e scope
    let r := walk s scope (meterOf w e.token s)
    walk? a walk w = (some r.1,(w.settled s r.2.visits).put a s) := by
  intro s r
  unfold walk?
  rw [bind_eq,h.acquire?_eq]
  dsimp only
  have settle := Workbench.settled_put w a s s r.2.visits
  rw [← settle]
  simp only [Workbench.settled,r,meterOf,s]
  cases (taken w e scope).context? with
  | none => rfl
  | some c =>
    dsimp only
    rw [bind_eq,metered_eq]
    rfl

theorem Reads.types_eq (h : Reads w a e scope) (includePrivate : Bool) :
    let s := taken w e scope
    let r := s.types scope includePrivate (meterOf w e.token s)
    types a includePrivate w = (r.1,(w.settled s r.2.2.visits).put a r.2.1) := by
  intro s r
  unfold types
  rw [bind_eq,h.walk?_eq]
  dsimp only
  have put := Workbench.put_put (w.settled s r.2.2.visits) a s r.2.1
  rw [← put]
  rfl

theorem types_of_unread (unread : acquire? a w = (none,w)) (includePrivate : Bool) :
    types a includePrivate w = ([],w) := by
  simp only [types,walk?,bind_eq,unread]
  rfl

theorem Reads.queryAssembly_eq (h : Reads w a e scope) {α : Type} (q : Graph → Query α)
    (otherwise : α) :
    let s := taken w e scope
    let r := s.query q otherwise
    queryAssembly a q otherwise w = (r.1,(w.put a r.2.1).noted s r.2.2) := by
  intro s r
  unfold queryAssembly
  rw [bind_eq,h.acquire?_eq]
  dsimp only
  have put := Workbench.put_put w a s r.2.1
  rw [← put]
  simp only [Workbench.noted,r,s]
  cases (taken w e scope).context? <;> rfl

theorem queryAssembly_of_unread (unread : acquire? a w = (none,w)) {α : Type} (q : Graph → Query α)
    (otherwise : α) : queryAssembly a q otherwise w = (otherwise,w) := by
  simp only [queryAssembly,bind_eq,unread]
  rfl

theorem isCancelled_settled {t : TokenKey} (known : t.index < w.tokens.length) {s : Assembly}
    {m : Meter} (follows : (meterOf w t s).Follows m) :
    (isCancelled t (w.settled s m.visits)).1 = m.cancelled := by
  rw [Bool.eq_iff_iff,follows.cancelled,meterOf_cancelled]
  unfold Workbench.settled meterOf
  cases s.context? with
  | none => simp
  | some c =>
    dsimp only
    rw [isCancelled_recorded known,Bool.or_eq_true,beq_iff_eq,rung?_eq_some_iff]

end Bench

end TestScout
