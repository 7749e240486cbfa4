import ContractTyping.Proofs.Struct.Worklist

/-!
# What varies in size

A type varies in size if it is a byte array or an array without a length, or has one inside. The
rule for this goes level by level, with the structs of the path marked while their members are
looked at: a struct on the path counts as one that does not vary, and the mark is taken back on
return (`StructTable.dynamicWithin`). Such an answer is provisional. It hides nothing, since a path
to something that varies can be cut where it comes back to a struct
(`StructTable.finds_struct_iff`). So the rule comes to an end with the answer that `isDynamic` finds
by a search (`StructTable.dynamic_reachability`).
-/

namespace ContractTyping

open Relation List ReflTransGen Ty

namespace Ty

/-- The types whose values vary in size by themselves. -/
inductive Varies : Ty → Prop
  | byteArray {isString : Bool} {place : Place} : Varies (.byteArray isString place)
  | array {element : Ty} {place : Place} : Varies (.array element none place)

theorem isDynamicLeaf_iff {t : Ty} :
    t.isDynamicLeaf = true ↔ ∃ u, ReflTransGen (HasElement false) t u ∧ u.Varies := by
  fun_induction isDynamicLeaf t with
  | case1 isString place => exact iff_of_true rfl ⟨_, .refl, .byteArray⟩
  | case2 element place => exact iff_of_true rfl ⟨_, .refl, .array⟩
  | case3 element length place ih =>
    rw [ih]
    constructor
    · rintro ⟨u, path, varies⟩
      exact ⟨u, path.head (.element (by simp)), varies⟩
    · rintro ⟨u, path, varies⟩
      rcases path.cases_head with rfl | ⟨_, ⟨_⟩, rest⟩
      · cases varies
      · exact ⟨u, rest, varies⟩
  | case4 t noBytes noDynamic noFixed =>
    refine iff_of_false Bool.false_ne_true ?_
    rintro ⟨u, path, varies⟩
    have noArray (element : Ty) (length : Option Nat) (place : Place) :
        t ≠ .array element length place := by
      cases length with
      | none => exact noDynamic element place
      | some length => exact noFixed element length place
    cases (through_iff_eq noArray).mp path
    cases varies with
    | byteArray => exact noBytes _ _ rfl
    | array => exact noArray _ _ _ rfl

theorem inlineStructs_subset (t : Ty) : t.inlineStructs ⊆ t.structs := by
  fun_induction inlineStructs t with
  | case1 => exact List.Subset.refl _
  | case2 element length place ih => exact ih
  | case3 => exact nil_subset _

end Ty

namespace StructTable

variable {table : StructTable} {t u : Ty} {id : NodeId} {visiting : List NodeId}

/-! ## What varies in size -/

theorem mem_inlineParts_iff {part : Ty} : part ∈ table.inlineParts t ↔
    part = t ∨ ∃ id, Graph.ReachedFrom table.inlineSuccessors t.inlineStructs id ∧
      part ∈ table.members id := by
  rw [inlineParts, parts, mem_cons, mem_flatMap]
  simp only [mem_reachable_iff members_of_inlineSuccessors]

theorem inlineSuccessors_subset (id : NodeId) :
    table.inlineSuccessors id ⊆ table.successors id := by
  intro inner found
  obtain ⟨member, mem, inMember⟩ := mem_flatMap.mp found
  exact mem_flatMap.mpr ⟨member, mem, member.inlineStructs_subset inMember⟩

theorem isDynamic_iff_inlineParts :
    table.isDynamic t = true ↔ ∃ part ∈ table.inlineParts t, part.isDynamicLeaf = true :=
  any_eq_true

theorem isDynamic_of_leaf (varies : t.isDynamicLeaf = true) : table.isDynamic t = true :=
  isDynamic_iff_inlineParts.mpr ⟨t, mem_inlineParts_iff.mpr (.inl rfl), varies⟩

/-- What is directly inside a type makes it vary. An array without a length does so anyway. -/
theorem isDynamic_of_inside (inside : table.Inside t u) (varies : table.isDynamic u = true) :
    table.isDynamic t = true := by
  obtain ⟨part, mem, dynamic⟩ := isDynamic_iff_inlineParts.mp varies
  rcases inside with @⟨element, length, place⟩ | @⟨id, name, place, _, inMembers⟩
  · cases length with
    | none => exact isDynamic_of_leaf rfl
    | some length =>
      rcases mem_inlineParts_iff.mp mem with rfl | found
      · exact isDynamic_of_leaf dynamic
      · exact isDynamic_iff_inlineParts.mpr ⟨part, mem_inlineParts_iff.mpr (.inr found), dynamic⟩
  · refine isDynamic_iff_inlineParts.mpr ⟨part, mem_inlineParts_iff.mpr (.inr ?_), dynamic⟩
    rcases mem_inlineParts_iff.mp mem with rfl | ⟨other, reached, inOther⟩
    · exact ⟨id, .inl (mem_singleton_self id), inMembers⟩
    · refine ⟨other, .inr ⟨id, mem_singleton_self id, Graph.reaches_iff.mpr (reached.mono ?_)⟩,
        inOther⟩
      exact fun inner found => mem_flatMap.mpr ⟨u, inMembers, found⟩

/-- A type varies exactly if it is a byte array or an array without a length, or has one inside. -/
theorem isDynamic_iff :
    table.isDynamic t = true ↔ ∃ u, ReflTransGen table.Inside t u ∧ u.Varies := by
  constructor
  · intro dynamic
    obtain ⟨part, mem, varies⟩ := isDynamic_iff_inlineParts.mp dynamic
    have inside : ReflTransGen table.Inside t part := by
      rcases mem_inlineParts_iff.mp mem with rfl | ⟨id, reached, inMembers⟩
      · exact .refl
      · have meets : table.Meets t id :=
          reached.induction (fun id mem => .inl (t.inlineStructs_subset mem))
          fun outer meets inner next => meets.next (inlineSuccessors_subset outer next)
        obtain ⟨name, place, path⟩ := meets.inside
        exact path.tail (.member inMembers)
    obtain ⟨u, through, isVarying⟩ := Ty.isDynamicLeaf_iff.mp varies
    exact ⟨u, inside.trans (inside_of_through through), isVarying⟩
  · rintro ⟨u, path, varies⟩
    induction path using head_induction_on with
    | refl => exact isDynamic_of_leaf (Ty.isDynamicLeaf_iff.mpr ⟨u, .refl, varies⟩)
    | head inside _ ih => exact isDynamic_of_inside inside ih

theorem isDynamic_iff_leads :
    table.isDynamic t = true ↔ ∃ u, ReflTransGen (table.Leads true) t u ∧ u.Varies := by
  rw [isDynamic_iff, ← leads_false]
  constructor
  · rintro ⟨u, path, varies⟩
    induction path using head_induction_on with
    | refl => exact ⟨u, .refl, varies⟩
    | head first _ ih =>
      obtain ⟨v, rest, varies⟩ := ih
      cases first with
      | element step =>
        obtain @⟨_, length, _, -⟩ := step
        -- An array without a length varies itself, so the path can end there.
        cases length with
        | none => exact ⟨_, .refl, .array⟩
        | some => exact ⟨v, rest.head (.element (.element fun _ => rfl)), varies⟩
      | member mem => exact ⟨v, rest.head (.member mem), varies⟩
  · rintro ⟨u, path, varies⟩
    refine ⟨u, mono (fun _ _ leads => ?_) _ _ path, varies⟩
    cases leads with
    | element step =>
      cases step
      exact .element (.element nofun)
    | member mem => exact .member mem

/-! ## The rule, level by level -/

/-- What the rule says of a type, if it comes to an end within the given number of levels. The
structs on the path are marked, and a struct that is marked is not entered. Members are looked at in
order, up to one that varies. -/
def dynamicWithin (table : StructTable) : Nat → Ty → StateT (List NodeId) Option Bool
  | 0, _ => fun _ => none
  | _ + 1, .byteArray .. => pure true
  | depth + 1, .array element length _ =>
    if length.isNone then pure true else table.dynamicWithin depth element
  | depth + 1, .struct id _ _ => do
    let visiting ← get
    if id ∈ visiting then pure false
    else
      set (id :: visiting)
      let dynamic ← (table.members id).anyM (table.dynamicWithin depth)
      modify (·.erase id)
      pure dynamic
  | _ + 1, _ => pure false

/-- From an array with a length to its element, and from a struct without a mark to its members. -/
inductive Enters (table : StructTable) (visiting : List NodeId) : Ty → Ty → Prop
  | element {t u : Ty} (step : HasElement true t u) : Enters table visiting t u
  | member {id : NodeId} {name : String} {place : Place} {member : Ty} (new : id ∉ visiting)
      (mem : member ∈ table.members id) : Enters table visiting (.struct id name place) member

/-- Whether something that varies in size can be found without entering a marked struct. -/
def Finds (table : StructTable) (visiting : List NodeId) (t : Ty) : Prop :=
  ∃ u, ReflTransGen (table.Enters visiting) t u ∧ u.Varies

theorem finds_nil_iff : table.Finds [] t ↔ table.isDynamic t = true := by
  have same : table.Enters [] = table.Leads true := by
    ext outer inner
    constructor
    · rintro (step | ⟨-, mem⟩)
      · exact .element step
      · exact .member mem
    · rintro (step | mem)
      · exact .element step
      · exact .member not_mem_nil mem
  rw [isDynamic_iff_leads, Finds, same]

/-- Nothing is found where nothing varies and nothing can be entered. -/
theorem not_finds (still : ¬ t.Varies) (ends : ∀ u, ¬ table.Enters visiting t u) :
    ¬ table.Finds visiting t := by
  rintro ⟨u, path, varies⟩
  rcases path.cases_head with rfl | ⟨next, enters, -⟩
  · exact still varies
  · exact ends next enters

theorem not_finds_marked {name : String} {place : Place} (marked : id ∈ visiting) :
    ¬ table.Finds visiting (.struct id name place) := by
  refine not_finds nofun fun u enters => ?_
  cases enters with
  | element step => cases step
  | member new => exact new marked

/-- A path past the marked structs avoids one more of them, at least from a member of it on. -/
theorem finds_or_member (finds : table.Finds visiting t) :
    table.Finds (id :: visiting) t ∨
    ∃ member ∈ table.members id, table.Finds (id :: visiting) member := by
  obtain ⟨u, path, varies⟩ := finds
  induction path using head_induction_on with
  | refl => exact .inl ⟨u, .refl, varies⟩
  | head enters _ ih =>
    rcases ih with ⟨v, rest, varies⟩ | found
    · cases enters with
      | element step => exact .inl ⟨v, rest.head (.element step), varies⟩
      | @member other _ _ _ new mem =>
        by_cases same : other = id
        · exact .inr ⟨_, same ▸ mem, v, rest, varies⟩
        · exact .inl ⟨v, rest.head (.member (by simp [same, new]) mem), varies⟩
    · exact .inr found

/-- What varies is found from a struct that is not marked exactly if it is found from a member with
this struct marked as well. -/
theorem finds_struct_iff {name : String} {place : Place} (new : id ∉ visiting) :
    table.Finds visiting (.struct id name place) ↔
      ∃ member ∈ table.members id, table.Finds (id :: visiting) member := by
  constructor
  · intro finds
    exact (finds_or_member finds).resolve_left (not_finds_marked mem_cons_self)
  · rintro ⟨member, mem, u, path, varies⟩
    refine ⟨u, .head (.member new mem) (mono (fun _ _ enters => ?_) _ _ path), varies⟩
    cases enters with
    | element step => exact .element step
    | member new mem => exact .member (fun marked => new (mem_cons_of_mem id marked)) mem

theorem finds_array_iff {element : Ty} {length : Nat} {place : Place} :
    table.Finds visiting (.array element (some length) place) ↔ table.Finds visiting element := by
  constructor
  · rintro ⟨u, path, varies⟩
    rcases path.cases_head with rfl | ⟨next, ⟨⟨-⟩⟩, rest⟩
    · cases varies
    · exact ⟨u, rest, varies⟩
  · rintro ⟨u, path, varies⟩
    exact ⟨u, path.head (.element (.element fun _ => rfl)), varies⟩

/-! ## Coming to an end -/

theorem anyM_eq_some {σ : Type} {p : Ty → StateT σ Option Bool} {q : Ty → Bool} {s : σ}
    {types : List Ty} (each : ∀ t ∈ types, p t s = some (q t, s)) :
    types.anyM p s = some (types.any q, s) := by
  induction types with
  | nil => rfl
  | cons t rest ih =>
    obtain ⟨first, others⟩ := forall_mem_cons.mp each
    show (p t s).bind _ = _
    rw [first, any_cons]
    cases q t with
    | false => exact ih others
    | true => rfl

theorem dynamicWithin_struct (depth : Nat) (name : String) (place : Place) :
    table.dynamicWithin (depth + 1) (.struct id name place) visiting =
      if id ∈ visiting then some (false, visiting)
      else ((table.members id).anyM (table.dynamicWithin depth) (id :: visiting)).map
        fun result => (result.1, result.2.erase id) := by
  show (if id ∈ visiting then pure false else _ : StateT _ _ _) visiting = _
  split
  · rfl
  · show ((table.members id).anyM (table.dynamicWithin depth) (id :: visiting)).bind _ = _
    cases (table.members id).anyM (table.dynamicWithin depth) (id :: visiting) <;> rfl

section

open scoped Classical

/-- What the rule comes to, and the marks that it leaves. -/
def Concludes (table : StructTable) (t : Ty) (visiting : List NodeId) : Prop :=
  ComesTo (table.dynamicWithin · t visiting) (decide (table.Finds visiting t), visiting)

theorem concludes_struct (name : String) (place : Place)
    (members : id ∉ visiting → ∀ member ∈ table.members id, table.Concludes member
      (id :: visiting)) :
    table.Concludes (.struct id name place) visiting := by
  by_cases marked : id ∈ visiting
  · refine .at_once fun _ => ?_
    rw [dynamicWithin_struct, if_pos marked, decide_eq_false (not_finds_marked marked)]
  · obtain ⟨depth, ends⟩ := ComesTo.exists_common (members marked)
    have answer :
        ((table.members id).any fun member => decide (table.Finds (id :: visiting) member)) =
        decide (table.Finds visiting (.struct id name place)) := by
      rw [Bool.eq_iff_iff, any_eq_true, decide_eq_true_iff, finds_struct_iff marked]
      simp only [decide_eq_true_iff]
    refine .of_succ depth fun more enough => ?_
    rw [dynamicWithin_struct, if_neg marked, anyM_eq_some (ends more enough), Option.map_some,
      erase_cons_head, answer]

/-- The rule comes to an end with what can be found, and leaves the marks as they were. The
induction is on the structs that are not marked, then on the layers of arrays. -/
theorem concludes (table : StructTable) (t : Ty) (visiting : List NodeId) :
    table.Concludes t visiting := by
  induction count : table.unvisited visiting using Nat.strong_induction_on
    generalizing t visiting with
  | _ n fewer =>
    fun_induction Ty.leaf t with
    | case1 element length place ih =>
      cases length with
      | none => exact .at_once fun _ => by rw [decide_eq_true ⟨_, .refl, .array⟩]; rfl
      | some =>
        rw [Concludes, decide_eq_decide.mpr finds_array_iff]
        exact ih.step fun _ => rfl
    | case2 t noArray =>
      cases t with
      | array => exact absurd rfl (noArray _ _ _)
      | byteArray => exact .at_once fun _ => by rw [decide_eq_true ⟨_, .refl, .byteArray⟩]; rfl
      | struct id name place =>
        exact concludes_struct name place fun new member mem =>
          fewer _ (count ▸ unvisited_lt new mem) member _ rfl
      | _ =>
        refine .at_once fun _ => ?_
        rw [decide_eq_false (not_finds (by rintro ⟨⟩) (by rintro u ⟨⟨⟩⟩))]
        rfl

end

/-- **What varies in size.** In every table, also where structs contain themselves, the rule comes
to an end and leaves no mark. A type varies in size exactly if a byte array or an array without a
length is reached from it through elements of arrays with a length and through members of structs.
Structs that come back to themselves hide nothing. -/
theorem dynamic_reachability (table : StructTable) (t : Ty) :
    ComesTo (fun depth => (table.dynamicWithin depth t).run []) (table.isDynamic t, []) ∧
    (table.isDynamic t = true ↔ ∃ u, ReflTransGen (table.Leads true) t u ∧ u.Varies) := by
  refine ⟨?_, isDynamic_iff_leads⟩
  have comes := table.concludes t []
  simp only [Concludes, finds_nil_iff, Bool.decide_eq_true] at comes
  exact comes

end StructTable

end ContractTyping
