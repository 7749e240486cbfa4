import ContractTyping.Proofs.Call.Arguments
import ContractTyping.Proofs.Clean

/-!
# Selecting among candidates

The candidates for a name come in any order, and functions that override one another come more than
once. Neither shows in what is selected: it only depends on which signatures there are among the
visible candidates (`selection_orderless`).

The reason is that both tests on the way are tests of signatures. Two candidates overlap if they
have the same signature (`overlaps_iff`), so the first of each kind is kept and every signature is
kept once. And unless a function takes anything, whether it accepts arguments by position is read
off its signature (`accepts_eq_takes`).

Arguments by name are left out: the names of parameters are no part of a signature.
-/

namespace ContractTyping

open List Ty

variable {kept : List Candidate}
variable {t : Ty}

/-- What distinguishes a candidate from others of its name: for a function how it is called and with
what, for anything else its type. -/
inductive Signature
  | call (kind : CallKind) (parameters : List Ty)
  | other (t : Ty)
deriving DecidableEq

/-- The signature of a candidate of this type. -/
def Ty.signature (t : Ty) : Signature :=
  match t.function? with
  | some f => .call f.kind f.parameters
  | none => .other t

/-- What follows from a selection is the same: an error, a type of the same signature, or several
types with the same signatures. -/
inductive Ty.SameOutcome : Ty → Ty → Prop
  | refused : SameOutcome .invalid .invalid
  | chosen {t t' : Ty} (same : t.signature = t'.signature) : SameOutcome t t'
  | several {types types' : List Ty} (same : (types.map signature).Perm (types'.map signature)) :
      SameOutcome (.overloaded types) (.overloaded types')

theorem Ty.signature_of_function {f : FunctionTy} (isFunction : t.function? = some f) :
    t.signature = .call f.kind f.parameters := by
  simp [signature, isFunction]

theorem Ty.signature_of_no_function (noFunction : t.function? = none) : t.signature = .other t := by
  simp [signature, noFunction]

namespace Candidate

variable (candidates : List Candidate)

def signature (c : Candidate) : Signature := c.type.signature

/-! ## Keeping one candidate of each signature -/

theorem overlaps_iff (c c' : Candidate) : c.overlaps c' = true ↔ c.signature = c'.signature := by
  unfold overlaps signature sameSignature
  cases left : c.type.function? with
  | none =>
    rw [signature_of_no_function left]
    cases right : c'.type.function? with
    | none => simp [signature_of_no_function right]
    | some g =>
      have differ : c.type ≠ c'.type := fun same => by simp [same, right] at left
      simp [signature_of_function right, differ]
  | some f =>
    rw [signature_of_function left]
    cases right : c'.type.function? with
    | none =>
      have differ : c.type ≠ c'.type := fun same => by simp [same, right] at left
      simp [signature_of_no_function right, differ]
    | some g => simp [signature_of_function right, FunctionTy.equalParameters, and_comm]

/-- Adds a candidate to those that are kept, unless its signature is there already. -/
def keep (kept : List Candidate) (c : Candidate) : List Candidate :=
  if kept.any fun c' => c'.overlaps c then kept else kept ++ [c]

theorem any_overlaps_iff (kept : List Candidate) (c : Candidate) :
    (kept.any fun c' => c'.overlaps c) = true ↔ c.signature ∈ kept.map signature := by
  simp [overlaps_iff]

theorem mem_signatures_keep (kept : List Candidate) (c : Candidate) (s : Signature) :
    s ∈ (keep kept c).map signature ↔ s ∈ kept.map signature ∨ s = c.signature := by
  unfold keep
  split
  · next known =>
    rw [any_overlaps_iff] at known
    exact ⟨.inl, fun mem => mem.elim id fun same => same ▸ known⟩
  · simp

theorem nodup_signatures_keep (nodup : (kept.map signature).Nodup) (c : Candidate) :
    ((keep kept c).map signature).Nodup := by
  unfold keep
  split
  · exact nodup
  · next new =>
    rw [any_overlaps_iff] at new
    rw [map_append, map_singleton, ← concat_eq_append]
    exact nodup.concat new

theorem distinct_eq : distinct candidates = candidates.foldl keep [] := rfl

theorem mem_signatures_foldl (kept : List Candidate) (s : Signature) :
    s ∈ (candidates.foldl keep kept).map signature ↔ s ∈ kept.map signature ∨
    s ∈ candidates.map signature := by
  induction candidates generalizing kept with
  | nil => simp
  | cons c rest ih => rw [foldl_cons, ih, mem_signatures_keep, map_cons, mem_cons, or_assoc]

theorem nodup_signatures_foldl (nodup : (kept.map signature).Nodup) :
    ((candidates.foldl keep kept).map signature).Nodup := by
  induction candidates generalizing kept with
  | nil => exact nodup
  | cons c rest ih => exact ih (nodup_signatures_keep nodup c)

/-- No signature is lost. -/
theorem mem_signatures_distinct (s : Signature) :
    s ∈ (distinct candidates).map signature ↔ s ∈ candidates.map signature := by
  rw [distinct_eq, mem_signatures_foldl]
  simp

/-- No signature is kept twice. -/
theorem nodup_signatures_distinct : ((distinct candidates).map signature).Nodup :=
  nodup_signatures_foldl candidates nodup_nil

/-- The signatures that are kept only depend on the set of signatures, up to their order. -/
theorem perm_signatures_distinct {candidates candidates' : List Candidate}
    (same : ∀ s, s ∈ candidates.map signature ↔ s ∈ candidates'.map signature) :
    ((distinct candidates).map signature).Perm ((distinct candidates').map signature) := by
  refine (perm_ext_iff_of_nodup (nodup_signatures_distinct _) (nodup_signatures_distinct _)).mpr
    fun s => ?_
  rw [mem_signatures_distinct, mem_signatures_distinct]
  exact same s

/-! ## Accepting arguments by position -/

/-- Whether a candidate is no function that takes arguments of any number and type. -/
def Fixed (c : Candidate) : Prop := ∀ f, c.type.function? = some f → f.arbitrary = false

end Candidate

/-- Whether arguments can be passed by position to what has the signature. -/
def Signature.takes (arguments : Arguments) : Signature → Bool
  | call _ parameters =>
    arguments.types.length == parameters.length &&
      (arguments.types.zip parameters).all fun (t, parameter) => t.implicitlyConvertible parameter
  | other _ => false

namespace Candidate

variable {arguments : Arguments} {kept' : List Candidate}

theorem accepts_eq_takes (positional : arguments.names = []) {c : Candidate} (fixed : c.Fixed) :
    c.accepts arguments = c.signature.takes arguments := by
  unfold accepts signature
  cases found : c.type.function? with
  | none =>
    rw [signature_of_no_function found]
    rfl
  | some f =>
    rw [signature_of_function found]
    simp [Arguments.passableTo, Signature.takes, fixed f found, positional]

/-- Candidates with the same signatures are left with the same signatures by the arguments. -/
theorem perm_signatures_accepted (positional : arguments.names = []) (fixed : ∀ c ∈ kept, c.Fixed)
    (fixed' : ∀ c ∈ kept', c.Fixed) (perm : (kept.map signature).Perm (kept'.map signature)) :
    ((kept.filter (accepts arguments)).map signature).Perm
      ((kept'.filter (accepts arguments)).map signature) := by
  have filtered {kept : List Candidate} (fixed : ∀ c ∈ kept, c.Fixed) :
      (kept.filter (accepts arguments)).map signature = (kept.map signature).filter
      (Signature.takes arguments) := by
    rw [filter_map]
    exact congrArg _ (filter_congr fun c mem => accepts_eq_takes positional (fixed c mem))
  rw [filtered fixed, filtered fixed']
  exact perm.filter _

/-! ## Selection -/

/-- Candidates with the same signatures are none, one, or several on both sides. -/
theorem cases_of_perm (perm : (kept.map signature).Perm (kept'.map signature)) :
    (kept = [] ∧ kept' = []) ∨ (∃ c c', kept = [c] ∧ kept' = [c'] ∧ c.signature = c'.signature) ∨
    ∃ c d rest c' d' rest', kept = c :: d :: rest ∧ kept' = c' :: d' :: rest' := by
  have count : kept.length = kept'.length := by simpa using perm.length_eq
  match kept, kept' with
  | [], [] => exact .inl ⟨rfl, rfl⟩
  | [c], [c'] => exact .inr (.inl ⟨c, c', rfl, rfl, by simpa using perm⟩)
  | c :: d :: rest, c' :: d' :: rest' => exact .inr (.inr ⟨c, d, rest, c', d', rest', rfl, rfl⟩)
  | [], _ :: _ | _ :: _, [] | [_], _ :: _ :: _ | _ :: _ :: _, [_] => simp at count

/-- The signatures among the candidates that are not hidden from a contract. -/
def visibleSignatures (contract : Option NodeId) (candidates : List Candidate) : List Signature :=
  (candidates.filter fun c => !c.isHidden contract).map signature

variable {contract : Option NodeId} {candidates candidates' : List Candidate}
  {arguments : Option Arguments}

theorem fixed_of_mem_distinct (fixed : ∀ c ∈ candidates, c.Fixed) (contract : Option NodeId)
    (c : Candidate)
    (mem : c ∈ distinct (candidates.filter fun c => !c.isHidden contract)) : c.Fixed :=
  fixed c (mem_of_mem_filter (mem_of_mem_distinct mem))

theorem select_alike (name : String) (fixed : ∀ c ∈ candidates, c.Fixed)
    (fixed' : ∀ c ∈ candidates', c.Fixed) (positional : ∀ a, arguments = some a → a.names = [])
    (same : ∀ s, s ∈ visibleSignatures contract candidates ↔
      s ∈ visibleSignatures contract candidates') :
    (∃ issue, select name contract candidates arguments = .error issue ∧
      select name contract candidates' arguments = .error issue) ∨
    ∃ t t', select name contract candidates arguments = .ok t ∧
      select name contract candidates' arguments = .ok t' ∧ t.SameOutcome t' := by
  have perm := perm_signatures_distinct same
  have fixed := fixed_of_mem_distinct fixed contract
  have fixed' := fixed_of_mem_distinct fixed' contract
  unfold select
  generalize distinct (candidates.filter fun c => !c.isHidden contract) = kept at perm fixed ⊢
  generalize distinct (candidates'.filter fun c => !c.isHidden contract) = kept' at perm fixed' ⊢
  rcases cases_of_perm perm with
    ⟨rfl, rfl⟩ | ⟨c, c', rfl, rfl, equal⟩ | ⟨c, d, rest, c', d', rest', rfl, rfl⟩
  · exact .inl ⟨_, rfl, rfl⟩
  · exact .inr ⟨_, _, rfl, rfl, .chosen equal⟩
  · cases arguments with
    | none => exact .inr ⟨_, _, rfl, rfl, .several (by rw [map_map, map_map]; exact perm)⟩
    | some a =>
      have accepted := perm_signatures_accepted (positional a rfl) fixed fixed' perm
      dsimp only
      generalize (c :: d :: rest).filter (accepts a) = chosen at accepted ⊢
      generalize (c' :: d' :: rest').filter (accepts a) = chosen' at accepted ⊢
      rcases cases_of_perm accepted with
        ⟨rfl, rfl⟩ | ⟨e, e', rfl, rfl, equal⟩ | ⟨_, _, _, _, _, _, rfl, rfl⟩
      · exact .inl ⟨_, rfl, rfl⟩
      · exact .inr ⟨_, _, rfl, rfl, .chosen equal⟩
      · exact .inl ⟨_, rfl, rfl⟩

end Candidate

/-- **Selection depends on signatures only.** Of two lists of candidates, none of which takes
arguments of any number and type, let the visible ones have the same set of signatures. Then without
arguments, or with the same arguments by position, selecting among the one and selecting among the
other records the same diagnostics and ends in the same way: with the invalid type, with a type of
the same signature, or with several types of the same signatures. -/
theorem selection_orderless (name : String) (span : Span) (c : Context)
    {candidates candidates' : List Candidate}
    {arguments : Option Arguments} (fixed : ∀ k ∈ candidates, k.Fixed)
    (fixed' : ∀ k ∈ candidates', k.Fixed) (positional : ∀ a, arguments = some a → a.names = [])
    (same : ∀ s, s ∈ Candidate.visibleSignatures c.contractId? candidates ↔
      s ∈ Candidate.visibleSignatures c.contractId? candidates') :
    ∃ t t' noted,
      (∀ σ, Check.selectCandidate name candidates arguments span c σ = .ok (t, σ.noting noted)) ∧
      (∀ σ, Check.selectCandidate name candidates' arguments span c σ = .ok (t', σ.noting noted)) ∧
      t.SameOutcome t' := by
  have run (candidates : List Candidate) (σ : Findings) :
      Check.selectCandidate name candidates arguments span c σ =
      Check.orReject (Candidate.select name c.contractId? candidates arguments) span c σ := rfl
  simp only [run]
  rcases Candidate.select_alike name fixed fixed' positional same with
    ⟨issue, left, right⟩ | ⟨t, t', left, right, outcome⟩
  · rw [left, right]
    exact ⟨.invalid, .invalid, [⟨issue, span, .error⟩], fun _ => rfl, fun _ => rfl, .refused⟩
  · rw [left, right]
    refine ⟨t, t', [], fun σ => ?_, fun σ => ?_, outcome⟩ <;> rw [Findings.noting_nil] <;> rfl

/-- A function that overrides another is before or after it; only a third one takes the argument. -/
theorem selection_orderless_overridden :
    let candidate (parameter : Ty) (mutability : Mutability) : Candidate :=
      ⟨⟨.function default, none⟩, (FunctionTy.of .internal [parameter] [] mutability).toTy⟩
    let candidates := [candidate .bool .view, candidate .uint256 .pure, candidate .bool .nonPayable]
    let given : Arguments := { types := [.integer 8 false] }
    let c : Context := ⟨⟨default, "", none, []⟩, {}, ⟨[], []⟩, ⟨[]⟩, {}⟩
    Candidate.select "f" none candidates (some given) = .ok (candidate .uint256 .pure).type ∧
    ∃ t t' noted,
      (∀ σ, Check.selectCandidate "f" candidates
        (some given) default c σ = .ok (t, σ.noting noted)) ∧
      (∀ σ, Check.selectCandidate "f" candidates.reverse
        (some given) default c σ = .ok (t', σ.noting noted)) ∧
      t.SameOutcome t' := by
  intro candidate candidates given c
  have fixed : ∀ k ∈ candidates, k.Fixed := by
    simp [candidates, candidate, Candidate.Fixed, Ty.function?, FunctionTy.toTy, FunctionTy.of]
  refine ⟨by decide +kernel, selection_orderless "f" default c fixed
    (fun k mem => fixed k (List.mem_reverse.mp mem)) ?_ ?_⟩
  · rintro a ⟨⟩
    rfl
  · intro s
    simp [Candidate.visibleSignatures]

end ContractTyping
