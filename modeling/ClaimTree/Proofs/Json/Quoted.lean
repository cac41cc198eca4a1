import ClaimTree.Json.Quoted

namespace ClaimTree.Json

/-- The escape of a control character writes its number. -/
theorem unit?_control {n : Nat} (hn : n < 0x20) :
    unit? '0' '0' (Nat.digitChar (n / 16)) (Nat.digitChar (n % 16)) = .ok n := by
  have hall : ∀ n < 0x20,
      Text.number? 16 ['0', '0', Nat.digitChar (n / 16), Nat.digitChar (n % 16)] = some n := by
    decide
  rw [unit?, hall n hn]

theorem readQuoted_unit {a b c d : Char} {n : Nat} (hunit : unit? a b c d = .ok n)
    (htrailing : isTrailing n = false) (hleading : isLeading n = false) (s : List Char) :
    readQuoted ('\\' :: 'u' :: a :: b :: c :: d :: s) = (do
      let (text, s) ← readQuoted s
      return (Char.ofNat n :: text, s)) := by
  rw [readQuoted, hunit]
  change (if isTrailing n = true then _ else if isLeading n = true then _ else _) = _
  rw [htrailing, if_neg Bool.false_ne_true, hleading, if_neg Bool.false_ne_true]

theorem readQuoted_escape (c : Char) (s : List Char) :
    readQuoted (escape c ++ s) = (do
      let (text, s) ← readQuoted s
      return (c :: text, s)) := by
  unfold escape
  split
  all_goals try rfl
  next hquote hbackslash hb ht hn hf hr =>
    split
    · next hcontrol =>
      have hunit := unit?_control hcontrol
      have hleading : isLeading c.toNat = false := by simp [isLeading]; omega
      have htrailing : isTrailing c.toNat = false := by simp [isTrailing]; omega
      have hread := readQuoted_unit hunit htrailing hleading s
      rwa [Char.ofNat_toNat] at hread
    · next hcontrol =>
      rw [List.singleton_append, readQuoted, if_neg hcontrol]
      all_goals intros; simp_all

theorem readQuoted_quote (s rest : List Char) :
    readQuoted (s.flatMap escape ++ '"' :: rest) = .ok (s, rest) := by
  induction s with
  | nil => rfl
  | cons c s ih =>
    rw [List.flatMap_cons, List.append_assoc, readQuoted_escape, ih]
    rfl

theorem quote_append (s rest : List Char) :
    quote s ++ rest = '"' :: (s.flatMap escape ++ '"' :: rest) := by
  rw [quote, List.append_assoc]
  rfl

end ClaimTree.Json
