import GhostMesh.Artifacts.Validation
import Mathlib.Data.List.Dedup

/-!
# What acceptance rules ask for

A rule is read only when a bundle is submitted. Beside the reading stands what the rule
says: a number of references, and a role that some reference has for each role it lists.
The two agree on the rules that fit.
-/

set_option autoImplicit false

namespace GhostMesh

/-! ## What a rule says -/

section Meaning
variable (w : World)

/-- The role of a reference in text; no role and a null role are none. -/
def ArtifactReference.role? (ref : ArtifactReference) : Option String :=
  match JsonObj.getD ref.metadata "role" .null with
  | .null => none
  | value => some (value.pyStr w)

def givenRoles (refs : List ArtifactReference) : List String :=
  refs.filterMap (·.role? w)

/-- The value is a number that is at most `n`. -/
def Json.atMost (n : Nat) : Json → Bool
  | .int k => k ≤ n
  | .bool b => b.toNat ≤ n
  | .float (.finite m e) => if 0 ≤ e then m * 2 ^ e.toNat ≤ n else m ≤ n * 2 ^ (-e).toNat
  | .float (.infinite negative) => negative
  | .str s => (intOfStr w s).any fun k => decide (k ≤ (n : Int))
  | _ => false

/-- The roles that the value lists; a text lists itself. -/
def Json.listedRoles : Json → Option (List String)
  | .list xs => some (xs.map (Json.pyStr w))
  | .obj fields => some (fields.map Prod.fst)
  | .str s => some (if s = "" then [] else [s])
  | _ => none

variable (refs : List ArtifactReference)

structure RequiredMet (rule : JsonObj) : Prop where
  count : (JsonObj.getD rule "min_count" (.int 1)).atMost w refs.length = true
  roles : ∃ names, (JsonObj.getD rule "roles" (.list [])).listedRoles w = some names ∧
    ∀ name ∈ names, name ∈ givenRoles w refs

structure ArtifactReference.WellStructured (ref : ArtifactReference) : Prop where
  storageRef : ref.storageRef ≠ ""
  contentHash : "sha256:".toList <+: ref.contentHash.toList
  sizeBytes : 0 ≤ ref.sizeBytes

def RuleMet (rule : JsonObj) : Prop :=
  match JsonObj.get? rule "type" with
  | some (.str "artifact_reference_structure") => ∀ ref ∈ refs, ref.WellStructured
  | some (.str "required_artifacts") => RequiredMet w refs rule
  | _ => True

/-- The bundle passes exactly if it meets the rule, and is refused as invalid otherwise. -/
structure Decided (rule : JsonObj) : Prop where
  passes : applyRule w refs rule = .ok () ↔ RuleMet w refs rule
  refuses : ∀ e, applyRule w refs rule = .error e → ∃ message, e = .invalidOperation message

end Meaning

/-! ## Which rules are read as they stand -/

section Fitting
variable (w : World) (refs : List ArtifactReference)

/-- `int(value)` is a number. -/
def Json.readsAsCount : Json → Bool
  | .int _ | .bool _ | .float (.finite _ _) => true
  | .str s => (intOfStr w s).isSome && decide (digitsOfStr w s ≤ maxStrDigits)
  | _ => false

/-- The value is a fraction between `n` and `n + 1`, of which `int(value)` is `n`. -/
def Json.justAbove (n : Nat) : Json → Bool
  | .float (.finite m e) =>
    decide (e < 0 ∧ n * 2 ^ (-e).toNat < m ∧ m < (n + 1) * 2 ^ (-e).toNat)
  | _ => false

/-- The names that the code goes through. A text has its characters. -/
def Json.readRoles : Json → List String
  | .list xs => xs.map (Json.pyStr w)
  | .obj fields => fields.map Prod.fst
  | .str s => s.toList.map fun c => String.ofList [c]
  | _ => []

/-- A reference without a role does not pass for one of the role `None`. -/
def NoneFits (names : List String) : Prop :=
  "None" ∈ names → "None" ∈ givenRoles w refs ∨ (∀ ref ∈ refs, ref.role? w ≠ none) ∨
    ∃ name ∈ names, name ≠ "None" ∧ name ∉ givenRoles w refs

/-- A text is given as a role exactly if each of its characters is. -/
def LettersFit (s : String) : Prop :=
  (∀ c ∈ s.toList, String.ofList [c] ∈ givenRoles w refs) ↔ s = "" ∨ s ∈ givenRoles w refs

def RolesFit : Json → Prop
  | .list xs => NoneFits w refs (xs.map (Json.pyStr w))
  | .obj fields => NoneFits w refs (fields.map Prod.fst)
  | .str s => LettersFit w refs s
  | _ => False

/-- Some role is missing even if a reference without a role counts as one of the role
`None`. -/
def RolesLack (roles : Json) : Prop :=
  ∃ name ∈ roles.readRoles w, name ∉ givenRoles w refs ∧
    (name = "None" → ∀ ref ∈ refs, ref.role? w ≠ none)

/-- What the values of a rule must be for the code to ask for what the rule says. -/
structure RequiredFits (rule : JsonObj) : Prop where
  count : (JsonObj.getD rule "min_count" (.int 1)).readsAsCount w = true
  roles : (JsonObj.getD rule "min_count" (.int 1)).atMost w refs.length = true →
    RolesFit w refs (JsonObj.getD rule "roles" (.list []))
  fraction : (JsonObj.getD rule "min_count" (.int 1)).justAbove refs.length = true →
    RolesLack w refs (JsonObj.getD rule "roles" (.list []))

def RuleFits (rule : JsonObj) : Prop :=
  match JsonObj.get? rule "type" with
  | some (.str "required_artifacts") => RequiredFits w refs rule
  | _ => True

end Fitting

/-! ## Counts -/

section Counts
variable {w : World} {v : Json} {n : Nat}

theorem Json.toInt_ok (h : v.readsAsCount w = true) : ∃ k, v.toInt w = .ok k := by
  cases v with
  | int k => exact ⟨k, rfl⟩
  | bool b => exact ⟨_, rfl⟩
  | float x =>
    cases x with
    | finite m e => exact ⟨_, rfl⟩
    | infinite negative => cases h
    | nan => cases h
  | str s =>
    simp only [readsAsCount, Bool.and_eq_true, decide_eq_true_eq] at h
    obtain ⟨k, hk⟩ := Option.isSome_iff_exists.mp h.1
    refine ⟨k, ?_⟩
    simp only [toInt, if_neg (Nat.not_lt.mpr h.2), hk]
  | null => cases h
  | list xs => cases h
  | obj fields => cases h

theorem Json.toInt_error (h : v.readsAsCount w = false) :
    ∃ e, v.toInt w = .error e ∧ ∀ message, e ≠ .invalidOperation message := by
  cases v with
  | int k => cases h
  | bool b => cases h
  | float x =>
    cases x with
    | finite m e => cases h
    | infinite negative => exact ⟨_, rfl, fun _ he => by cases he⟩
    | nan => exact ⟨_, rfl, fun _ he => by cases he⟩
  | str s =>
    by_cases hlimit : maxStrDigits < digitsOfStr w s
    · simp only [toInt, if_pos hlimit]
      exact ⟨_, rfl, fun _ he => by cases he⟩
    · have hnone : intOfStr w s = none := by
        simpa [readsAsCount, Nat.not_lt.mp hlimit] using h
      simp only [toInt, if_neg hlimit, hnone]
      exact ⟨_, rfl, fun _ he => by cases he⟩
  | null => exact ⟨_, rfl, fun _ he => by cases he⟩
  | list xs => exact ⟨_, rfl, fun _ he => by cases he⟩
  | obj fields => exact ⟨_, rfl, fun _ he => by cases he⟩

/-- The whole part of a fraction is at most `n` if the fraction is less than `n + 1`. -/
theorem tdiv_le_iff {m d : Int} (hd : 0 < d) : m.tdiv d ≤ n ↔ m < (n + 1) * d := by
  rcases Int.le_total 0 m with hm | hm
  · rw [Int.tdiv_eq_ediv_of_nonneg hm, ← Int.lt_add_one_iff, Int.ediv_lt_iff_lt_mul hd]
  · have hle : m.tdiv d ≤ 0 := by
      have := Int.tdiv_le_tdiv hd hm
      rwa [Int.zero_tdiv] at this
    have hpos : 0 < ((n : Int) + 1) * d := Int.mul_pos (by omega) hd
    constructor
    · intro _
      omega
    · intro _
      omega

/-- The number that the code compares lets pass what the value does, and one reference
less for a fraction. -/
theorem Json.toInt_le_iff {k : Int} (h : v.toInt w = .ok k) :
    k ≤ n ↔ v.atMost w n = true ∨ v.justAbove n = true := by
  cases v with
  | int k' =>
    cases h
    simp [atMost, justAbove]
  | bool b =>
    cases h
    cases b with
    | false => simp [atMost, justAbove]
    | true =>
      have hone : (1 : Int) ≤ n ↔ 1 ≤ n := by omega
      simp [atMost, justAbove, hone]
  | float x =>
    cases x with
    | finite m e =>
      cases h
      by_cases he : 0 ≤ e
      · simp [atMost, justAbove, he, Int.not_lt.mpr he]
      · have hd : (0 : Int) < 2 ^ (-e).toNat := Int.pow_pos (by decide)
        have hlt : (n : Int) * 2 ^ (-e).toNat < (n + 1) * 2 ^ (-e).toNat :=
          Int.mul_lt_mul_of_pos_right (Int.lt_succ n) hd
        simp only [atMost, justAbove, if_neg he, decide_eq_true_eq, tdiv_le_iff hd]
        omega
    | infinite negative => cases h
    | nan => cases h
  | str s =>
    simp only [toInt] at h
    split at h
    · cases h
    · cases hs : intOfStr w s with
      | none =>
        simp only [hs] at h
        cases h
      | some k' =>
        simp only [hs] at h
        cases h
        simp [atMost, justAbove, hs]
  | null => cases h
  | list xs => cases h
  | obj fields => cases h

/-- A fraction above `n` is not at most `n`. -/
theorem Json.not_atMost_of_justAbove (h : v.justAbove n = true) : v.atMost w n = false := by
  cases v with
  | float x =>
    cases x with
    | finite m e =>
      simp only [justAbove, decide_eq_true_eq] at h
      simp only [atMost, if_neg (Int.not_le.mpr h.1), decide_eq_false_iff_not]
      omega
    | infinite negative => cases h
    | nan => cases h
  | _ => cases h

end Counts

/-! ## Roles -/

section Roles
variable {w : World} {refs : List ArtifactReference} {v : Json}

/-- A reference without a role has the text of a missing one. -/
theorem mem_presentRoles {name : String} : name ∈ presentRoles w refs ↔
    name ∈ givenRoles w refs ∨ (name = "None" ∧ ∃ ref ∈ refs, ref.role? w = none) := by
  have htext : ∀ ref : ArtifactReference,
      (JsonObj.getD ref.metadata "role" .null).pyStr w = (ref.role? w).getD "None" := by
    intro ref
    unfold ArtifactReference.role?
    cases JsonObj.getD ref.metadata "role" .null <;> rfl
  simp only [presentRoles, givenRoles, List.mem_map, List.mem_filterMap, htext]
  constructor
  · rintro ⟨ref, href, rfl⟩
    cases hrole : ref.role? w with
    | some name => exact .inl ⟨ref, href, hrole⟩
    | none => exact .inr ⟨rfl, ref, href, hrole⟩
  · rintro (⟨ref, href, hrole⟩ | ⟨rfl, ref, href, hrole⟩)
    · exact ⟨ref, href, by rw [hrole]; rfl⟩
    · exact ⟨ref, href, by rw [hrole]; rfl⟩

theorem not_mem_presentRoles {name : String} : name ∉ presentRoles w refs ↔
    name ∉ givenRoles w refs ∧ (name = "None" → ∀ ref ∈ refs, ref.role? w ≠ none) := by
  rw [mem_presentRoles]
  push Not
  rfl

/-- The names read are those of the set that the code builds. -/
theorem Json.strItems_cases (v : Json) :
    (∃ e, v.strItems w = .error e ∧ v.listedRoles w = none ∧
        ∀ message, e ≠ .invalidOperation message) ∨
      ∃ names, v.strItems w = .ok names ∧ (v.listedRoles w).isSome ∧
        ∀ name, name ∈ names ↔ name ∈ v.readRoles w := by
  cases v with
  | list xs => exact .inr ⟨_, rfl, rfl, fun _ => List.mem_dedup⟩
  | obj fields => exact .inr ⟨_, rfl, rfl, fun _ => List.mem_dedup⟩
  | str s => exact .inr ⟨_, rfl, rfl, fun _ => List.mem_dedup⟩
  | _ => exact .inl ⟨_, rfl, rfl, fun _ he => by cases he⟩

/-- A single character is not the text `None`. -/
theorem singleton_ne_none (c : Char) : String.singleton c ≠ "None" := by
  intro h
  have hlength := congrArg (fun s => s.toList.length) h
  simp at hlength

/-- For names that are read as they are listed. -/
theorem noneFits_iff {names : List String} : NoneFits w refs names ↔
    ((∀ name ∈ names, name ∈ presentRoles w refs) ↔ ∀ name ∈ names, name ∈ givenRoles w refs) := by
  have hgiven : (∀ name ∈ names, name ∈ givenRoles w refs) →
      ∀ name ∈ names, name ∈ presentRoles w refs :=
    fun h name hname => mem_presentRoles.mpr (.inl (h name hname))
  constructor
  · intro hfits
    refine ⟨fun hpresent name hname => ?_, hgiven⟩
    rcases mem_presentRoles.mp (hpresent name hname) with h | ⟨rfl, ref, href, hrole⟩
    · exact h
    · rcases hfits hname with h | hroles | ⟨other, hother, hne, hlacks⟩
      · exact h
      · exact absurd hrole (hroles ref href)
      · rcases mem_presentRoles.mp (hpresent other hother) with h | h
        · exact absurd h hlacks
        · exact absurd h.1 hne
  · intro hiff hlisted
    by_contra hbad
    push Not at hbad
    obtain ⟨hnone, ⟨ref, href, hrole⟩, hothers⟩ := hbad
    apply hnone
    refine hiff.mp (fun name hname => mem_presentRoles.mpr ?_) _ hlisted
    by_cases hname' : name = "None"
    · exact .inr ⟨hname', ref, href, hrole⟩
    · exact .inl (hothers name hname hname')

/-- Where the roles fit, the code finds them all exactly if they are given. -/
theorem rolesFit_iff : RolesFit w refs v ↔ (v.listedRoles w).isSome ∧
    ((∀ name ∈ v.readRoles w, name ∈ presentRoles w refs) ↔
      ∃ names, v.listedRoles w = some names ∧ ∀ name ∈ names, name ∈ givenRoles w refs) := by
  cases v with
  | list xs => simp [RolesFit, noneFits_iff, Json.listedRoles, Json.readRoles]
  | obj fields => simp [RolesFit, noneFits_iff, Json.listedRoles, Json.readRoles]
  | str s =>
    have hletters : (∀ name ∈ Json.readRoles w (.str s), name ∈ presentRoles w refs) ↔
        ∀ c ∈ s.toList, String.ofList [c] ∈ givenRoles w refs := by
      simp [Json.readRoles, mem_presentRoles, singleton_ne_none]
    have hlisted : (∃ names, Json.listedRoles w (.str s) = some names ∧
        ∀ name ∈ names, name ∈ givenRoles w refs) ↔ s = "" ∨ s ∈ givenRoles w refs := by
      by_cases hs : s = "" <;> simp [Json.listedRoles, hs]
    rw [hletters, hlisted]
    exact ⟨fun h => ⟨rfl, h⟩, fun h => h.2⟩
  | _ => simp [RolesFit, Json.listedRoles]

/-- The code goes through what can be listed, and finds a role missing where they lack. -/
theorem rolesLack_iff : RolesLack w refs v ↔ (v.listedRoles w).isSome ∧
    ¬ ∀ name ∈ v.readRoles w, name ∈ presentRoles w refs := by
  have hlack : RolesLack w refs v ↔ ∃ name ∈ v.readRoles w, name ∉ presentRoles w refs := by
    simp only [RolesLack, not_mem_presentRoles]
  rw [hlack]
  push Not
  constructor
  · rintro ⟨name, hname, hmissing⟩
    refine ⟨?_, name, hname, hmissing⟩
    cases v with
    | list xs => rfl
    | obj fields => rfl
    | str s => rfl
    | _ => cases hname
  · exact fun h => h.2

end Roles

/-! ## Rules -/

section Rules
variable {w : World} {refs : List ArtifactReference} {rule : JsonObj}

theorem validateStructure_ok_iff :
    validateStructure refs = .ok () ↔ ∀ ref ∈ refs, ref.WellStructured := by
  induction refs with
  | nil => simp [validateStructure]
  | cons ref rest ih =>
    rw [validateStructure, List.forall_mem_cons, ← ih]
    by_cases hstorage : ref.storageRef = ""
    · rw [if_pos hstorage]
      refine ⟨fun h => ?_, fun h => absurd hstorage h.1.storageRef⟩
      cases h
    rw [if_neg hstorage]
    cases hhash : "sha256:".toList.isPrefixOf ref.contentHash.toList with
    | false =>
      constructor
      · intro h
        cases h
      · intro h
        rw [List.isPrefixOf_iff_prefix.mpr h.1.contentHash] at hhash
        cases hhash
    | true =>
      rw [if_neg (by decide)]
      by_cases hsize : ref.sizeBytes < 0
      · rw [if_pos hsize]
        refine ⟨fun h => ?_, fun h => absurd h.1.sizeBytes (Int.not_le.mpr hsize)⟩
        cases h
      · rw [if_neg hsize]
        exact ⟨fun h => ⟨⟨hstorage, List.isPrefixOf_iff_prefix.mp hhash, Int.not_lt.mp hsize⟩, h⟩,
          fun h => h.2⟩

theorem validateStructure_refuses {e : PyErr} (h : validateStructure refs = .error e) :
    ∃ message, e = .invalidOperation message := by
  induction refs with
  | nil => cases h
  | cons ref rest ih =>
    unfold validateStructure at h
    split at h
    · cases h
      exact ⟨_, rfl⟩
    split at h
    · cases h
      exact ⟨_, rfl⟩
    split at h
    · cases h
      exact ⟨_, rfl⟩
    · exact ih h

/-- What the code does with a rule, value by value. -/
inductive RequiredCheck (w : World) (refs : List ArtifactReference) (count roles : Json)
    (r : Except PyErr Unit) : Prop where
  | misread (hcount : count.readsAsCount w = false) {e : PyErr} (h : r = .error e)
      (he : ∀ message, e ≠ .invalidOperation message)
  | few (hcount : count.readsAsCount w = true) (hmost : count.atMost w refs.length = false)
      (habove : count.justAbove refs.length = false) {message : String}
      (h : r = .error (.invalidOperation message))
  | unlisted (hcount : count.readsAsCount w = true)
      (henough : count.atMost w refs.length = true ∨ count.justAbove refs.length = true)
      (hroles : roles.listedRoles w = none) {e : PyErr} (h : r = .error e)
      (he : ∀ message, e ≠ .invalidOperation message)
  | missing (hcount : count.readsAsCount w = true)
      (henough : count.atMost w refs.length = true ∨ count.justAbove refs.length = true)
      (hroles : (roles.listedRoles w).isSome)
      (hmissing : ¬ ∀ name ∈ roles.readRoles w, name ∈ presentRoles w refs) {message : String}
      (h : r = .error (.invalidOperation message))
  | passes (hcount : count.readsAsCount w = true)
      (henough : count.atMost w refs.length = true ∨ count.justAbove refs.length = true)
      (hroles : (roles.listedRoles w).isSome)
      (hpresent : ∀ name ∈ roles.readRoles w, name ∈ presentRoles w refs) (h : r = .ok ())

theorem validateRequiredArtifacts_check (w : World) (refs : List ArtifactReference)
    (rule : JsonObj) : RequiredCheck w refs (JsonObj.getD rule "min_count" (.int 1))
      (JsonObj.getD rule "roles" (.list [])) (validateRequiredArtifacts w refs rule) := by
  unfold validateRequiredArtifacts
  generalize JsonObj.getD rule "min_count" (.int 1) = count
  generalize JsonObj.getD rule "roles" (.list []) = roles
  cases hcount : count.readsAsCount w with
  | false =>
    obtain ⟨e, hint, he⟩ := Json.toInt_error hcount
    rw [hint]
    exact .misread hcount rfl he
  | true =>
    obtain ⟨k, hint⟩ := Json.toInt_ok hcount
    rw [hint]
    have hle := Json.toInt_le_iff (n := refs.length) hint
    change RequiredCheck w refs count roles (if (refs.length : Int) < k then _ else _)
    by_cases hfew : (refs.length : Int) < k
    · rw [if_pos hfew]
      have hnot := mt hle.mpr (Int.not_le.mpr hfew)
      rw [not_or, Bool.not_eq_true, Bool.not_eq_true] at hnot
      exact .few hcount hnot.1 hnot.2 rfl
    rw [if_neg hfew]
    have henough := hle.mp (Int.not_lt.mp hfew)
    rcases Json.strItems_cases roles with ⟨e, hitems, hroles, he⟩ | ⟨names, hitems, hroles, hnames⟩
    · rw [hitems]
      exact .unlisted hcount henough hroles rfl he
    · rw [hitems]
      change RequiredCheck w refs count roles
        (if names.filter (· ∉ presentRoles w refs) = [] then _ else _)
      have hmissing : names.filter (· ∉ presentRoles w refs) = [] ↔
          ∀ name ∈ roles.readRoles w, name ∈ presentRoles w refs := by
        simp [List.filter_eq_nil_iff, hnames]
      split
      · exact .passes hcount henough hroles (hmissing.mp ‹_›) rfl
      · exact .missing hcount henough hroles (mt hmissing.mpr ‹_›) rfl

/-- A required-artifacts rule is decided as it is written exactly if its values fit. -/
theorem requiredFits_iff : RequiredFits w refs rule ↔
    (validateRequiredArtifacts w refs rule = .ok () ↔ RequiredMet w refs rule) ∧
      ∀ e, validateRequiredArtifacts w refs rule = .error e →
        ∃ message, e = .invalidOperation message := by
  have hmet : RequiredMet w refs rule ↔
      (JsonObj.getD rule "min_count" (.int 1)).atMost w refs.length = true ∧
        ∃ names, (JsonObj.getD rule "roles" (.list [])).listedRoles w = some names ∧
          ∀ name ∈ names, name ∈ givenRoles w refs :=
    ⟨fun h => ⟨h.count, h.roles⟩, fun h => ⟨h.1, h.2⟩⟩
  have hfits : RequiredFits w refs rule ↔
      (JsonObj.getD rule "min_count" (.int 1)).readsAsCount w = true ∧
      ((JsonObj.getD rule "min_count" (.int 1)).atMost w refs.length = true →
        RolesFit w refs (JsonObj.getD rule "roles" (.list []))) ∧
      ((JsonObj.getD rule "min_count" (.int 1)).justAbove refs.length = true →
        RolesLack w refs (JsonObj.getD rule "roles" (.list []))) :=
    ⟨fun h => ⟨h.count, h.roles, h.fraction⟩, fun h => ⟨h.1, h.2.1, h.2.2⟩⟩
  have hcheck := validateRequiredArtifacts_check w refs rule
  rw [hmet, hfits, rolesFit_iff, rolesLack_iff]
  generalize JsonObj.getD rule "min_count" (.int 1) = count at *
  generalize JsonObj.getD rule "roles" (.list []) = roles at *
  have hexclusive : count.justAbove refs.length = true → count.atMost w refs.length = false :=
    Json.not_atMost_of_justAbove
  cases hcheck with
  | misread hcount h he =>
    rw [h, hcount]
    constructor
    · intro hfit
      cases hfit.1
    · intro hdecided
      obtain ⟨message, hmessage⟩ := hdecided.2 _ rfl
      exact absurd hmessage (he message)
  | few hcount hmost habove h =>
    rw [h]
    simp [hcount, hmost, habove]
  | unlisted hcount henough hroles h he =>
    rw [h, hroles]
    constructor
    · intro hfit
      rcases henough with hmost | habove
      · cases (hfit.2.1 hmost).1
      · cases (hfit.2.2 habove).1
    · intro hdecided
      obtain ⟨message, hmessage⟩ := hdecided.2 _ rfl
      exact absurd hmessage (he message)
  | missing hcount henough hroles hmissing h =>
    rw [h]
    rcases henough with hmost | habove
    · simp [hcount, hmost, hroles, hmissing]
    · simp [hcount, hexclusive habove, habove, hroles, hmissing]
  | passes hcount henough hroles hpresent h =>
    rw [h]
    rcases henough with hmost | habove
    · have hbelow : count.justAbove refs.length ≠ true := by
        intro habove
        rw [hexclusive habove] at hmost
        cases hmost
      simp [hcount, hmost, hbelow, hroles, iff_true_intro hpresent]
    · simp [hcount, hexclusive habove, habove, hroles, iff_true_intro hpresent]

/-- The rule fits exactly if the code decides it as it is written. -/
theorem decided_iff_fits : Decided w refs rule ↔ RuleFits w refs rule := by
  have hdecided : Decided w refs rule ↔ (applyRule w refs rule = .ok () ↔ RuleMet w refs rule) ∧
      ∀ e, applyRule w refs rule = .error e → ∃ message, e = .invalidOperation message :=
    ⟨fun h => ⟨h.passes, h.refuses⟩, fun h => ⟨h.1, h.2⟩⟩
  rw [hdecided]
  unfold applyRule
  split
  · rename_i htype
    have hmet : RuleMet w refs rule ↔ ∀ ref ∈ refs, ref.WellStructured := by
      simp only [RuleMet, htype]
    have hfits : RuleFits w refs rule := by simp [RuleFits, htype]
    rw [hmet]
    exact iff_of_true ⟨validateStructure_ok_iff, fun e h => validateStructure_refuses h⟩ hfits
  · rename_i htype
    have hmet : RuleMet w refs rule ↔ RequiredMet w refs rule := by simp [RuleMet, htype]
    have hfits : RuleFits w refs rule ↔ RequiredFits w refs rule := by simp [RuleFits, htype]
    rw [hmet, hfits]
    exact requiredFits_iff.symm
  · rename_i hstructure hrequired
    have hmet : RuleMet w refs rule := by
      unfold RuleMet
      split
      · exact absurd ‹_› hstructure
      · exact absurd ‹_› hrequired
      · trivial
    have hfits : RuleFits w refs rule := by
      unfold RuleFits
      split
      · exact absurd ‹_› hrequired
      · trivial
    refine iff_of_true ⟨iff_of_true rfl hmet, fun e h => ?_⟩ hfits
    cases h

/-! ## The rules of a contract, one after the other -/

variable {rules : List JsonObj}

variable (w refs rules) in
/-- The bundle meets the rules before this one, so that the code comes to it. -/
def Reached (rule : JsonObj) : Prop :=
  ∃ before after, rules = before ++ rule :: after ∧ ∀ r ∈ before, RuleMet w refs r

theorem Reached.head : Reached w refs (rule :: rules) rule := ⟨[], rules, rfl, nofun⟩

theorem Reached.cons {first : JsonObj} (hfirst : RuleMet w refs first)
    (h : Reached w refs rules rule) : Reached w refs (first :: rules) rule := by
  obtain ⟨before, after, heq, hmet⟩ := h
  refine ⟨first :: before, after, by rw [heq]; rfl, ?_⟩
  intro r hr
  rcases List.mem_cons.mp hr with rfl | hr
  · exact hfirst
  · exact hmet r hr

/-- Where each rule that the code comes to is decided as it is written, so is the
contract. -/
theorem applyRules_decided (h : ∀ rule, Reached w refs rules rule → Decided w refs rule) :
    (applyRules w refs rules = .ok () ↔ ∀ rule ∈ rules, RuleMet w refs rule) ∧
      ∀ e, applyRules w refs rules = .error e → ∃ message, e = .invalidOperation message := by
  induction rules with
  | nil => exact ⟨iff_of_true rfl nofun, fun e he => by cases he⟩
  | cons first rest ih =>
    have hfirst := h first .head
    cases happly : applyRule w refs first with
    | error e =>
      have hrun : applyRules w refs (first :: rest) = .error e := by
        rw [applyRules, happly]
        rfl
      have hnot : ¬ RuleMet w refs first := by
        intro hmet
        rw [hfirst.passes.mpr hmet] at happly
        cases happly
      rw [hrun]
      refine ⟨iff_of_false (fun hok => by cases hok) fun hall => hnot (hall _ List.mem_cons_self),
        fun e' he' => ?_⟩
      cases he'
      exact hfirst.refuses e happly
    | ok u =>
      have hrun : applyRules w refs (first :: rest) = applyRules w refs rest := by
        rw [applyRules, happly]
        rfl
      have hmet := hfirst.passes.mp happly
      rw [hrun, List.forall_mem_cons]
      obtain ⟨hpasses, hrefuses⟩ := ih fun rule hrule => h rule (hrule.cons hmet)
      exact ⟨hpasses.trans ⟨fun hrest => ⟨hmet, hrest⟩, fun hall => hall.2⟩, hrefuses⟩

end Rules

end GhostMesh
