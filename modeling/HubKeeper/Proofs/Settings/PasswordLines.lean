import HubKeeper.Proofs.Text.Basic
import HubKeeper.Settings.Validator

/-!
Lines of a password file.

A line is a user, a colon and a hash.  No user has a colon in it, so the first colon of a line
stands between the two, where the test cuts as well.  The test takes decimal digits of every
script for the cost of a hash and the format knows those of ASCII only, so a line has the format
just when it is accepted and nothing but ASCII stands behind its first colon.
-/

namespace HubKeeper

/-- The parts of a hash between its dollar signs, for a class of digits. -/
structure PasswordHash (digit : Char → Prop) (version cost encoded : String) : Prop where
  version : version ∈ ["", "a", "b", "x", "y"]
  costLength : cost.length = 2
  costDigits : ∀ c ∈ cost.toList, digit c
  length : encoded.length = 53
  chars : ∀ c ∈ encoded.toList, Text.IsLetter c ∨ Text.IsDigit c ∨ c = '.' ∨ c = '/'

def hashText (version cost encoded : String) : String :=
  "$2" ++ version ++ "$" ++ cost ++ "$" ++ encoded

/-- What stands before the colon of a line. -/
structure PasswordUser (user : String) : Prop where
  nonempty : user ≠ ""
  noColon : ':' ∉ user.toList
  noBlank : ∀ c ∈ user.toList, Text.isBlank c = false

def PasswordLine (digit : Char → Prop) (s : String) : Prop :=
  ∃ user version cost encoded,
    s = user ++ ":" ++ hashText version cost encoded ∧ PasswordUser user ∧
      PasswordHash digit version cost encoded

/-- Nothing but ASCII stands behind the first colon. -/
def AsciiBehindColon (s : String) : Prop :=
  ∀ before after : String, s = before ++ ":" ++ after → ':' ∉ before.toList →
    ∀ c ∈ after.toList, c.toNat < 128

variable {s user version cost encoded : String} {digit : Char → Prop} {cs before after : List Char}

/-! ### Hashes -/

theorem isHashChar_iff {c : Char} :
    isHashChar c = true ↔ Text.IsLetter c ∨ Text.IsDigit c ∨ c = '.' ∨ c = '/' := by
  simp only [isHashChar, Bool.or_eq_true, beq_iff_eq, Text.isAlphanum_iff, or_assoc]

theorem isCostAndHash_iff :
    isCostAndHash cs = true ↔ ∃ cost encoded : String,
      cs = '$' :: (cost.toList ++ '$' :: encoded.toList) ∧
        PasswordHash (Text.isDecimalDigit · = true) "" cost encoded := by
  constructor
  · intro accepted
    unfold isCostAndHash at accepted
    split at accepted
    · rename_i tens ones hash
      simp only [Bool.and_eq_true, beq_iff_eq, List.all_eq_true] at accepted
      obtain ⟨⟨⟨tensDigit, onesDigit⟩, length⟩, chars⟩ := accepted
      refine ⟨.ofList [tens, ones], .ofList hash, by simp, ?_⟩
      constructor
      case version => simp
      case costLength => simp
      case costDigits => simpa using ⟨tensDigit, onesDigit⟩
      case length => simpa using length
      case chars => simpa [isHashChar_iff] using chars
    · cases accepted
  · rintro ⟨cost, encoded, rfl, hash⟩
    have two : cost.toList.length = 2 := hash.costLength
    obtain ⟨tens, ones, digits⟩ := List.length_eq_two.mp two
    have isDigits := hash.costDigits
    have length : encoded.toList.length = 53 := hash.length
    have chars : ∀ c ∈ encoded.toList, isHashChar c = true :=
      fun c member => isHashChar_iff.mpr (hash.chars c member)
    rw [digits] at isDigits
    rw [digits]
    simp only [List.cons_append, List.nil_append, isCostAndHash, Bool.and_eq_true, beq_iff_eq,
      List.all_eq_true]
    exact ⟨⟨⟨isDigits tens (by simp), isDigits ones (by simp)⟩, length⟩, chars⟩

/-- A version is a letter or nothing, and a dollar sign follows it. -/
theorem isPasswordHash_iff :
    isPasswordHash cs = true ↔ ∃ version cost encoded : String,
      cs = (hashText version cost encoded).toList ∧
        PasswordHash (Text.isDecimalDigit · = true) version cost encoded := by
  constructor
  · intro accepted
    unfold isPasswordHash at accepted
    split at accepted
    · rename_i c rest
      split at accepted
      · rename_i letter
        obtain ⟨cost, encoded, rfl, hash⟩ := isCostAndHash_iff.mp accepted
        refine ⟨.ofList [c], cost, encoded, by simp [hashText], { hash with version := ?_ }⟩
        simp only [Bool.or_eq_true, decide_eq_true_eq, or_assoc] at letter
        rcases letter with rfl | rfl | rfl | rfl <;> decide
      · obtain ⟨cost, encoded, text, hash⟩ := isCostAndHash_iff.mp accepted
        exact ⟨"", cost, encoded, by simp [hashText, text], hash⟩
    · cases accepted
  · rintro ⟨version, cost, encoded, rfl, hash⟩
    have plain : isCostAndHash ('$' :: (cost.toList ++ '$' :: encoded.toList)) = true :=
      isCostAndHash_iff.mpr ⟨cost, encoded, rfl, { hash with version := by simp }⟩
    have known := hash.version
    simp only [List.mem_cons, List.not_mem_nil, or_false] at known
    rcases known with rfl | rfl | rfl | rfl | rfl <;>
      simpa [hashText, isPasswordHash] using plain

/-! ### Lines -/

theorem cut_at_colon (absent : ':' ∉ before) (after : List Char) :
    (before ++ ':' :: after).takeWhile (· != ':') = before ∧
      (before ++ ':' :: after).dropWhile (· != ':') = ':' :: after := by
  have others : ∀ c ∈ before, (c != ':') = true := by
    intro c member
    rw [bne_iff_ne]
    rintro rfl
    exact absent member
  rw [List.takeWhile_append_of_pos others, List.dropWhile_append_of_pos others]
  simp

theorem colon_unique {later others : List Char} (absent : ':' ∉ before) (noColon : ':' ∉ later)
    (same : before ++ ':' :: after = later ++ ':' :: others) : after = others := by
  have cut := (cut_at_colon absent after).2
  rw [same, (cut_at_colon noColon others).2] at cut
  exact (List.cons.inj cut).2.symm

theorem isHtpasswd_iff : isHtpasswd s = true ↔ PasswordLine (Text.isDecimalDigit · = true) s := by
  constructor
  · intro accepted
    simp only [isHtpasswd, Bool.and_eq_true, bne_iff_ne, Bool.not_eq_true',
      List.any_eq_false] at accepted
    obtain ⟨⟨nonempty, noBlank⟩, accepted⟩ := accepted
    split at accepted
    · rename_i hash behind
      obtain ⟨version, cost, encoded, rfl, parts⟩ := isPasswordHash_iff.mp accepted
      refine ⟨.ofList (s.toList.takeWhile (· != ':')), version, cost, encoded, ?_, ?_, parts⟩
      · apply String.toList_inj.mp
        conv_lhs => rw [← List.takeWhile_append_dropWhile (p := (· != ':')) (l := s.toList), behind]
        simp
      · constructor
        case nonempty => simpa [← String.toList_eq_nil_iff] using nonempty
        case noColon =>
          rw [String.toList_ofList]
          intro inside
          have other := List.mem_takeWhile_imp inside
          simp at other
        case noBlank => simpa using noBlank
    · cases accepted
  · rintro ⟨user, version, cost, encoded, rfl, named, hash⟩
    have text : (user ++ ":" ++ hashText version cost encoded).toList =
        user.toList ++ ':' :: (hashText version cost encoded).toList := by
      simp
    obtain ⟨front, behind⟩ := cut_at_colon named.noColon (hashText version cost encoded).toList
    simp only [isHtpasswd, text, front, behind, Bool.and_eq_true, bne_iff_ne, Bool.not_eq_true',
      List.any_eq_false]
    exact ⟨⟨mt String.toList_eq_nil_iff.mp named.nonempty,
      fun c member => by simp [named.noBlank c member]⟩,
      isPasswordHash_iff.mpr ⟨version, cost, encoded, rfl, hash⟩⟩

/-! ### ASCII -/

theorem ascii_of_isDigit {c : Char} (accepted : Text.IsDigit c) : c.toNat < 128 := by
  have code := Char.le_def.mp accepted.2
  rw [UInt32.le_iff_toNat_le] at code
  exact Nat.lt_of_le_of_lt code (by decide)

theorem ascii_of_isLetter {c : Char} (letter : Text.IsLetter c) : c.toNat < 128 := by
  have code := (Text.toNat_of_isAlpha (Text.isAlpha_iff.mpr letter)).2
  omega

/-- The digits of other scripts begin above ASCII. -/
theorem isDecimalDigit_iff_isDigit {c : Char} (ascii : c.toNat < 128) :
    Text.isDecimalDigit c = true ↔ Text.IsDigit c := by
  have table : ∀ n < 128, Text.within Text.decimalDigitBounds n = true ↔ 48 ≤ n ∧ n ≤ 57 := by
    decide +kernel
  rw [Text.isDecimalDigit, table c.toNat ascii]
  rfl

theorem PasswordHash.change {other : Char → Prop} (hash : PasswordHash digit version cost encoded)
    (implies : ∀ c ∈ cost.toList, digit c → other c) : PasswordHash other version cost encoded :=
  { hash with costDigits := fun c member => implies c member (hash.costDigits c member) }

theorem PasswordHash.ascii (hash : PasswordHash Text.IsDigit version cost encoded) :
    ∀ c ∈ (hashText version cost encoded).toList, c.toNat < 128 := by
  have versionAscii : ∀ c ∈ version.toList, c.toNat < 128 := by
    have known := hash.version
    simp only [List.mem_cons, List.not_mem_nil, or_false] at known
    rcases known with rfl | rfl | rfl | rfl | rfl <;> simp
  have costAscii : ∀ c ∈ cost.toList, c.toNat < 128 :=
    fun c member => ascii_of_isDigit (hash.costDigits c member)
  have encodedAscii : ∀ c ∈ encoded.toList, c.toNat < 128 := by
    intro c member
    rcases hash.chars c member with letter | isDigit | rfl | rfl
    · exact ascii_of_isLetter letter
    · exact ascii_of_isDigit isDigit
    · decide
    · decide
  simp only [hashText, String.toList_append, List.forall_mem_append]
  exact ⟨⟨⟨⟨⟨by simp, versionAscii⟩, by simp⟩, costAscii⟩, by simp⟩, encodedAscii⟩

theorem PasswordLine.asciiBehindColon (line : PasswordLine Text.IsDigit s) : AsciiBehindColon s := by
  obtain ⟨user, version, cost, encoded, rfl, named, hash⟩ := line
  intro before after same absent c member
  have text : user.toList ++ ':' :: (hashText version cost encoded).toList =
      before.toList ++ ':' :: after.toList := by
    simpa using congrArg String.toList same
  rw [← colon_unique named.noColon absent text] at member
  exact hash.ascii c member

/-- A line of the format is an accepted one without digits of other scripts. -/
theorem passwordLine_iff :
    PasswordLine Text.IsDigit s ↔
      PasswordLine (Text.isDecimalDigit · = true) s ∧ AsciiBehindColon s := by
  constructor
  · intro line
    have ascii := line.asciiBehindColon
    obtain ⟨user, version, cost, encoded, rfl, named, hash⟩ := line
    refine ⟨⟨user, version, cost, encoded, rfl, named, hash.change ?_⟩, ascii⟩
    intro c member isDigit
    exact (isDecimalDigit_iff_isDigit (ascii_of_isDigit isDigit)).mpr isDigit
  · rintro ⟨⟨user, version, cost, encoded, rfl, named, hash⟩, ascii⟩
    refine ⟨user, version, cost, encoded, rfl, named, hash.change ?_⟩
    intro c member isDigit
    have behind := ascii user _ rfl named.noColon c (by simp [hashText, member])
    exact (isDecimalDigit_iff_isDigit behind).mp isDigit

theorem htpasswd_ok_iff : Validator.htpasswd (.text s) = .ok () ↔ isHtpasswd s = true := by
  simp only [Validator.htpasswd, Validator.onText]
  split
  · rename_i accepted
    exact iff_of_true rfl accepted
  · rename_i refused
    exact iff_of_false nofun refused

/-- What is accepted has the format but for the script of the digits of the cost, and it has the
format just when all behind the first colon is ASCII. -/
theorem htpasswd_accepts (s : String) :
    (Validator.htpasswd (.text s) = .ok () ↔ PasswordLine (Text.isDecimalDigit · = true) s) ∧
      (PasswordLine Text.IsDigit s ↔
        Validator.htpasswd (.text s) = .ok () ∧ AsciiBehindColon s) := by
  have accepted : Validator.htpasswd (.text s) = .ok () ↔
      PasswordLine (Text.isDecimalDigit · = true) s := htpasswd_ok_iff.trans isHtpasswd_iff
  exact ⟨accepted, passwordLine_iff.trans (and_congr_left' accepted.symm)⟩

def arabicCost : String :=
  "admin:$2y$\u0660\u0665$LCmVF2WJY/Ue0avRDcsDmelPqzXQcMIXoRxHF3bR62HuIP.fqqqZm"

theorem arabicCost_accepted :
    ¬∀ s, (Validator.htpasswd (.text s) = .ok () ↔ PasswordLine Text.IsDigit s) ∧
      (Validator.htpasswd (.text s) = .ok () → AsciiBehindColon s) := by
  intro claim
  have accepted : isHtpasswd arabicCost = true := by decide +kernel
  have ascii := (claim arabicCost).2 (htpasswd_ok_iff.mpr accepted)
  have digit := ascii "admin"
    "$2y$\u0660\u0665$LCmVF2WJY/Ue0avRDcsDmelPqzXQcMIXoRxHF3bR62HuIP.fqqqZm" (by decide +kernel)
    (by decide) '\u0660' (by decide)
  revert digit
  decide

end HubKeeper
