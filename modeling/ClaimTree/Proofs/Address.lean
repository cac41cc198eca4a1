import ClaimTree.Proofs.Except
import ClaimTree.Proofs.Text.Hex

namespace ClaimTree.Address

open Text

/-- The texts that differ from `s` at most in the case of letters. -/
def Recased (s t : List Char) : Prop :=
  List.Forall₂ (fun c d => d = c.toLower ∨ d = c.toUpper) s t

theorem isDigit_recase {d : Nat} (hd : d < 16) (nibble : Nat) :
    IsDigit 16 (recase (Nat.digitChar d) nibble) d := by
  rw [recase]
  split
  · exact ⟨hd, .inr rfl⟩
  · exact ⟨hd, .inl rfl⟩

theorem digits_recase {ds ns : List Nat} (hlength : ds.length ≤ ns.length)
    (hds : ∀ d ∈ ds, d < 16) :
    List.Forall₂ (IsDigit 16) (List.zipWith recase (row ds) ns) ds := by
  induction ds generalizing ns with
  | nil => exact .nil
  | cons d ds ih =>
    cases ns with
    | nil => cases hlength
    | cons n ns =>
      obtain ⟨hd, hrest⟩ := List.forall_mem_cons.mp hds
      exact .cons (isDigit_recase hd n) (ih (Nat.le_of_succ_le_succ hlength) hrest)

theorem isDigit_toLower_toUpper {c : Char} {d : Nat} (h : IsDigit 16 c d) :
    IsDigit 16 c.toLower d ∧ IsDigit 16 c.toUpper d := by
  have hlower : ∀ d < 16, IsDigit 16 (Nat.digitChar d).toLower d ∧
      IsDigit 16 (Nat.digitChar d).toUpper d := by decide
  have hupper : ∀ d < 16, IsDigit 16 (Nat.digitChar d).toUpper.toLower d ∧
      IsDigit 16 (Nat.digitChar d).toUpper.toUpper d := by decide
  obtain ⟨hd, rfl | rfl⟩ := h
  · exact hlower d hd
  · exact hupper d hd

/-- A change of case changes no digit. -/
theorem Recased.digits {s t : List Char} {ds : List Nat} (h : Recased s t)
    (hs : List.Forall₂ (IsDigit 16) s ds) : List.Forall₂ (IsDigit 16) t ds := by
  induction hs generalizing t with
  | nil =>
    cases h
    exact .nil
  | cons hd _ ih =>
    obtain _ | ⟨hcase, hrest⟩ := h
    obtain ⟨hlower, hupper⟩ := isDigit_toLower_toUpper hd
    rcases hcase with rfl | rfl
    · exact .cons hlower (ih hrest)
    · exact .cons hupper (ih hrest)

variable {a : Address}

theorem length_nibbles_caseDigest (a : Address) :
    (nibbles a.bytes.toList).length ≤ (nibbles a.caseDigest.toList).length := by
  rw [length_nibbles, length_nibbles, a.bytes.length_toList, a.caseDigest.length_toList]
  decide

theorem digits_checksumDigits (a : Address) :
    List.Forall₂ (IsDigit 16) a.checksumDigits (nibbles a.bytes.toList) := by
  rw [checksumDigits, digits, hexDigits_eq_row]
  exact digits_recase a.length_nibbles_caseDigest fun d hd => nibbles_lt hd

/-- Every spelling of the digits of an address, whatever stands around it. -/
theorem parse_spelled {marker s before after : List Char} (hmarker : marker ∈ markers)
    (hs : List.Forall₂ (IsDigit 16) s (nibbles a.bytes.toList)) (hbefore : Blank before)
    (hafter : Blank after) : parse (String.ofList (before ++ (marker ++ s ++ after))) = .ok a := by
  rw [parse, fixedHex?_spelled hmarker hs hbefore hafter]

theorem parse_checksum (a : Address) : parse a.checksum = .ok a := by
  have hmarker : ['0', 'x'] ∈ markers := by decide
  have hparse := parse_spelled hmarker a.digits_checksumDigits blank_nil blank_nil
  rwa [List.nil_append, List.append_nil] at hparse

theorem checksum_injective : Function.Injective checksum :=
  injective_of_read_back parse_checksum

end ClaimTree.Address
