import TestScout.Attribute.TypeName
import TestScout.Proofs.Trimming
set_option autoImplicit false

namespace TestScout.AttributeTypeName

variable {text name suffix type assembly : String} {part : List Char} {n : AttributeTypeName}

def typePart (text : String) : List Char :=
  text.toList.takeWhile (· ≠ ',')

def assemblyPart? (text : String) : Option (List Char) :=
  (text.toList.dropWhile (· ≠ ',')).tail?.map fun rest => rest.takeWhile (· ≠ ',')

/-- The part is the name with blanks around it, and the name is not empty. -/
structure Writes (part : List Char) (name : String) : Prop where
  filled : name ≠ ""
  padded : Text.IsPadded name.toList part
  trimmed : Text.IsTrimmed name.toList

/-- The text writes the type name, which has no brackets, and just the assembly name that there is. -/
structure Reads (text : String) (n : AttributeTypeName) : Prop where
  type : Writes (typePart text) n.typeName
  unbracketed : ∀ c ∈ n.typeName.toList, c ≠ '[' ∧ c ≠ ']'
  assembly : ∀ name, n.assemblyName = some name ↔
    ∃ part, assemblyPart? text = some part ∧ Writes part name

def written (n : AttributeTypeName) : String :=
  match n.assemblyName with
  | none => n.typeName
  | some name => n.typeName ++ "," ++ (" " ++ name)

def IsSuffix (suffix : String) : Prop :=
  suffix = "" ∨ ∃ rest, suffix = "," ++ rest

theorem nonblank?_eq_some_iff : nonblank? part = some name ↔ Writes part name := by
  have trims : String.ofList (Text.trimChars part) = name ↔
      Text.IsPadded name.toList part ∧ Text.IsTrimmed name.toList := by
    rw [← Text.trimChars_eq_iff,← String.toList_inj,String.toList_ofList]
  unfold nonblank?
  dsimp only
  constructor
  · intro h
    split at h
    · cases h
    · next filled =>
      obtain rfl := Option.some.inj h
      obtain ⟨pads,trimmed⟩ := trims.1 rfl
      exact ⟨by simpa using filled,pads,trimmed⟩
  · rintro ⟨filled,pads,trimmed⟩
    obtain rfl := trims.2 ⟨pads,trimmed⟩
    rw [if_neg (by simpa using filled)]

theorem comma_not_mem_takeWhile (cs : List Char) : ',' ∉ cs.takeWhile (· ≠ ',') := by
  intro member
  simpa using List.mem_takeWhile_imp member

theorem splitOn_comma (cs : List Char) :
    cs.splitOn ',' = cs.takeWhile (· ≠ ',') ::
      ((cs.dropWhile (· ≠ ',')).tail?.map fun rest => rest.splitOn ',').getD [] := by
  have whole : cs.takeWhile (· ≠ ',') ++ cs.dropWhile (· ≠ ',') = cs :=
    List.takeWhile_append_dropWhile
  cases after : cs.dropWhile (· ≠ ',') with
  | nil =>
    rw [after,List.append_nil] at whole
    have free := comma_not_mem_takeWhile cs
    rw [whole] at free ⊢
    exact List.splitOn_eq_singleton free
  | cons c rest =>
    have stop := List.head?_dropWhile_not (· ≠ ',') cs
    rw [after] at stop
    have comma : c = ',' := by simpa using stop
    subst comma
    have split := List.splitOn_append_cons_self_of_not_mem (comma_not_mem_takeWhile cs) rest
    rw [← after,whole] at split
    exact split

theorem parse?_eq (text : String) :
    parse? text = if (typePart text).any isBracket then none else
      (nonblank? (typePart text)).map fun typeName =>
        ⟨typeName,(assemblyPart? text).bind nonblank?⟩ := by
  have next : (((text.toList.dropWhile (· ≠ ',')).tail?.map fun rest => rest.splitOn ',').getD
      []).head? = assemblyPart? text := by
    unfold assemblyPart?
    cases (text.toList.dropWhile (· ≠ ',')).tail? with
    | none => rfl
    | some rest => rw [Option.map_some,Option.getD_some,splitOn_comma]; rfl
  unfold parse?
  rw [splitOn_comma]
  dsimp only
  rw [next]
  rfl

theorem Writes.any_isBracket (writes : Writes part name) :
    part.any isBracket = false ↔ ∀ c ∈ name.toList, c ≠ '[' ∧ c ≠ ']' := by
  have bracket_iff (c : Char) : isBracket c = false ↔ c ≠ '[' ∧ c ≠ ']' := by
    simp [isBracket]
  rw [List.any_eq_false]
  constructor
  · intro none c member
    exact (bracket_iff c).1 (Bool.not_eq_true _ ▸ none c (writes.padded.subset member))
  · intro none c member bracket
    by_cases inside : c ∈ name.toList
    · exact absurd bracket (by rw [(bracket_iff c).2 (none c inside)]; decide)
    · have blank := writes.padded.blank_of_not_mem member inside
      rw [isBracket,Bool.or_eq_true,beq_iff_eq,beq_iff_eq] at bracket
      rcases bracket with rfl | rfl <;> exact absurd blank (by decide)

theorem Writes.unique {other : String} (writes : Writes part name) (again : Writes part other) :
    name = other :=
  Option.some.inj ((nonblank?_eq_some_iff.2 writes).symm.trans (nonblank?_eq_some_iff.2 again))

theorem parse?_eq_some_iff : parse? text = some n ↔ Reads text n := by
  have assembly_iff (name : String) : (assemblyPart? text).bind nonblank? = some name ↔
      ∃ part, assemblyPart? text = some part ∧ Writes part name := by
    simp only [Option.bind_eq_some_iff,nonblank?_eq_some_iff]
  rw [parse?_eq]
  constructor
  · intro h
    split at h
    · cases h
    · next unbracketed =>
      obtain ⟨typeName,found,rfl⟩ := Option.map_eq_some_iff.1 h
      have writes := nonblank?_eq_some_iff.1 found
      exact ⟨writes,writes.any_isBracket.1 (Bool.not_eq_true _ ▸ unbracketed),assembly_iff⟩
  · rintro ⟨type,unbracketed,assembly⟩
    have same : (assemblyPart? text).bind nonblank? = n.assemblyName :=
      Option.ext fun name => (assembly_iff name).trans (assembly name).symm
    rw [type.any_isBracket.2 unbracketed,nonblank?_eq_some_iff.2 type,same]
    rfl

theorem isSome_parse?_iff : (parse? text).isSome ↔
    ∃ name, Writes (typePart text) name ∧ ∀ c ∈ name.toList, c ≠ '[' ∧ c ≠ ']' := by
  constructor
  · intro h
    obtain ⟨n,found⟩ := Option.isSome_iff_exists.1 h
    obtain ⟨type,unbracketed,-⟩ := parse?_eq_some_iff.1 found
    exact ⟨n.typeName,type,unbracketed⟩
  · rintro ⟨name,type,unbracketed⟩
    rw [parse?_eq,type.any_isBracket.2 unbracketed,nonblank?_eq_some_iff.2 type]
    rfl

theorem ne_comma {cs : List Char} (free : ',' ∉ cs) : ∀ c ∈ cs, decide (c ≠ ',') = true := by
  intro c member
  exact decide_eq_true fun comma => free (comma ▸ member)

theorem takeWhile_append_suffix {cs : List Char} (free : ',' ∉ cs) (ends : IsSuffix suffix) :
    (cs ++ suffix.toList).takeWhile (· ≠ ',') = cs := by
  rw [List.takeWhile_append_of_pos (ne_comma free)]
  rcases ends with rfl | ⟨rest,rfl⟩ <;> simp

theorem typePart_append (free : ',' ∉ name.toList) (ends : IsSuffix suffix) :
    typePart (name ++ suffix) = name.toList := by
  rw [typePart,String.toList_append]
  exact takeWhile_append_suffix free ends

theorem assemblyPart?_append (free : ',' ∉ type.toList) (free' : ',' ∉ assembly.toList)
    (ends : IsSuffix suffix) :
    assemblyPart? (type ++ "," ++ assembly ++ suffix) = some assembly.toList := by
  have whole : (type ++ "," ++ assembly ++ suffix).toList =
      type.toList ++ ',' :: (assembly.toList ++ suffix.toList) := by
    simp [String.toList_append]
  have after : (type ++ "," ++ assembly ++ suffix).toList.dropWhile (· ≠ ',') =
      ',' :: (assembly.toList ++ suffix.toList) := by
    rw [whole,List.dropWhile_append_of_pos (ne_comma free)]
    simp
  rw [assemblyPart?,after]
  exact congrArg some (takeWhile_append_suffix free' ends)

theorem assemblyPart?_eq_none (free : ',' ∉ name.toList) : assemblyPart? name = none := by
  rw [assemblyPart?,List.dropWhile_eq_nil_iff.2 (ne_comma free)]
  rfl

theorem comma_not_mem_of_isPadded {padded : List Char} (pads : Text.IsPadded part padded)
    (free : ',' ∉ part) : ',' ∉ padded := by
  intro member
  exact absurd (pads.blank_of_not_mem member free) (by decide)

theorem Reads.clean (reads : Reads text n) (h : name = n.typeName ∨ n.assemblyName = some name) :
    name ≠ "" ∧ ',' ∉ name.toList ∧ Text.IsTrimmed name.toList := by
  rcases h with rfl | h
  · refine ⟨reads.type.filled,fun comma => ?_,reads.type.trimmed⟩
    exact comma_not_mem_takeWhile _ (reads.type.padded.subset comma)
  · obtain ⟨part,found,writes⟩ := (reads.assembly name).1 h
    obtain ⟨rest,-,rfl⟩ := Option.map_eq_some_iff.1 found
    exact ⟨writes.filled,fun comma => comma_not_mem_takeWhile _ (writes.padded.subset comma),
      writes.trimmed⟩

theorem Reads.pad (reads : Reads text n) (h : n.assemblyName = some name)
    (pads : Text.IsPadded n.typeName.toList type.toList)
    (pads' : Text.IsPadded name.toList assembly.toList) (ends : IsSuffix suffix) :
    Reads (type ++ "," ++ assembly ++ suffix) n := by
  obtain ⟨filled,free,trimmed⟩ := reads.clean (.inl rfl)
  obtain ⟨filled',free',trimmed'⟩ := reads.clean (.inr h)
  have first := comma_not_mem_of_isPadded pads free
  have second := comma_not_mem_of_isPadded pads' free'
  have whole : type ++ "," ++ assembly ++ suffix = type ++ ("," ++ (assembly ++ suffix)) := by
    simp only [String.append_assoc]
  refine ⟨?_,reads.unbracketed,fun other => ?_⟩
  · rw [whole,typePart_append first (.inr ⟨_,rfl⟩)]
    exact ⟨filled,pads,trimmed⟩
  · rw [assemblyPart?_append first second ends,h]
    constructor
    · rintro ⟨⟩
      exact ⟨_,rfl,filled',pads',trimmed'⟩
    · rintro ⟨_,⟨⟩,writes⟩
      exact congrArg some (Writes.unique ⟨filled',pads',trimmed'⟩ writes)

theorem Reads.alone (reads : Reads text n) : Reads n.typeName { n with assemblyName := none } := by
  obtain ⟨filled,free,trimmed⟩ := reads.clean (.inl rfl)
  have alone : typePart n.typeName = n.typeName.toList := by
    simpa using typePart_append free (.inl rfl)
  refine ⟨?_,reads.unbracketed,?_⟩
  · rw [alone]
    exact ⟨filled,Text.isPadded_self _,trimmed⟩
  · simp [assemblyPart?_eq_none free]

theorem Reads.written (reads : Reads text n) : Reads n.written n := by
  unfold AttributeTypeName.written
  split
  · next none =>
    have alone := reads.alone
    rwa [← none] at alone
  · next name some =>
    have blank : Text.IsPadded name.toList (" " ++ name).toList :=
      ⟨[' '],[],by simp [String.toList_append],List.forall_mem_singleton.2 (by decide),by simp⟩
    simpa using reads.pad some (Text.isPadded_self _) blank (.inl rfl)

/-- The texts that are read are those whose first part writes a name without brackets. What is read is
what the parts write; it is without blanks at its ends and without commas, and it is read again from
each of its spellings. -/
theorem parse?_exact (text : String) :
    ((parse? text).isSome ↔
      ∃ name, Writes (typePart text) name ∧ ∀ c ∈ name.toList, c ≠ '[' ∧ c ≠ ']') ∧
    ∀ n, parse? text = some n →
      Reads text n ∧
      (∀ name, name = n.typeName ∨ n.assemblyName = some name →
        name ≠ "" ∧ ',' ∉ name.toList ∧ Text.IsTrimmed name.toList) ∧
      parse? n.typeName = some { n with assemblyName := none } ∧
      parse? n.written = some n ∧
      ∀ name, n.assemblyName = some name → ∀ type assembly suffix,
        Text.IsPadded n.typeName.toList type.toList → Text.IsPadded name.toList assembly.toList →
        IsSuffix suffix → parse? (type ++ "," ++ assembly ++ suffix) = some n := by
  refine ⟨isSome_parse?_iff,fun n found => ?_⟩
  have reads := parse?_eq_some_iff.1 found
  refine ⟨reads,fun name h => reads.clean h,?_,?_,?_⟩
  · exact parse?_eq_some_iff.2 reads.alone
  · exact parse?_eq_some_iff.2 reads.written
  · intro name h type assembly suffix pads pads' ends
    exact parse?_eq_some_iff.2 (reads.pad h pads pads' ends)

theorem parse?_exact_versioned :
    parse? " Xunit.FactAttribute , xunit.core , Version=2.4.0.0" =
      some ⟨"Xunit.FactAttribute",some "xunit.core"⟩ ∧
    parse? "Xunit.FactAttribute, xunit.core" = some ⟨"Xunit.FactAttribute",some "xunit.core"⟩ ∧
    parse? "\tXunit.FactAttribute,xunit.core\u00A0,[x]" =
      some ⟨"Xunit.FactAttribute",some "xunit.core"⟩ := by
  have found : parse? " Xunit.FactAttribute , xunit.core , Version=2.4.0.0" =
      some ⟨"Xunit.FactAttribute",some "xunit.core"⟩ := by decide
  obtain ⟨-,-,-,written,padded⟩ := (parse?_exact _).2 _ found
  refine ⟨found,written,?_⟩
  refine padded "xunit.core" rfl "\tXunit.FactAttribute" "xunit.core\u00A0" ",[x]" ?_ ?_ ?_
  · exact ⟨['\t'],[],by decide,List.forall_mem_singleton.2 (by decide),by simp⟩
  · exact ⟨[],['\u00A0'],by decide,by simp,List.forall_mem_singleton.2 (by decide)⟩
  · exact .inr ⟨"[x]",rfl⟩

end TestScout.AttributeTypeName
