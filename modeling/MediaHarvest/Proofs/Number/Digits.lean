import MediaHarvest.Number.Decimal
import Mathlib.Data.List.TakeWhile

/-!
# Reading back digits

The digits of a number, folded onto their values, make the number again, whatever the base; no
number but zero starts with the digit zero; and a scanner that takes digits stops where they end.
-/

namespace MediaHarvest.Number

/-- The rest of a text does not go on with a character that `scanned` takes. -/
def Stops (scanned : Char → Bool) (rest : List Char) : Prop :=
  ∀ c ∈ rest.head?, scanned c = false

@[simp]
theorem stops_nil (scanned : Char → Bool) : Stops scanned [] := by
  simp [Stops]

@[simp]
theorem stops_cons (scanned : Char → Bool) (c : Char) (rest : List Char) :
    Stops scanned (c :: rest) ↔ scanned c = false := by
  simp [Stops]

/-- A scanner takes what it knows and leaves the rest. -/
theorem scan_append {scanned : Char → Bool} {front rest : List Char}
    (all : ∀ c ∈ front, scanned c = true) (stop : Stops scanned rest) :
    (front ++ rest).takeWhile scanned = front ∧ (front ++ rest).dropWhile scanned = rest := by
  rw [List.takeWhile_append_of_pos all, List.dropWhile_append_of_pos all]
  cases rest with
  | nil => simp
  | cons c rest =>
      have out : scanned c = false := stop c rfl
      simp [out]

/-- What a scanner leaves does not go on with what it takes. -/
theorem stops_dropWhile (scanned : Char → Bool) (chars : List Char) :
    Stops scanned (chars.dropWhile scanned) := by
  intro c first
  have stop := List.head?_dropWhile_not scanned chars
  rw [Option.mem_def.1 first] at stop
  exact stop

section Base

variable {base : Nat}

/-- What holds of the digits below the base holds of all digits of a number. -/
theorem forall_toDigits (one : 1 < base) {holds : Char → Prop}
    (digit : ∀ d < base, holds d.digitChar) (n : Nat) : ∀ c ∈ Nat.toDigits base n, holds c := by
  induction n using Nat.strongRecOn with
  | ind n ih =>
      rw [Nat.toDigits_eq_if one]
      split
      · next small =>
        intro c mem
        rw [List.mem_singleton.1 mem]
        exact digit n small
      · next large =>
        have smaller : n / base < n := Nat.div_lt_self (by omega) one
        intro c mem
        rcases List.mem_append.1 mem with front | last
        · exact ih _ smaller c front
        · rw [List.mem_singleton.1 last]
          exact digit _ (Nat.mod_lt _ (by omega))

/-- The values of the digits add up to the number. -/
theorem foldl_toDigits (one : 1 < base) {value : Char → Nat}
    (digit : ∀ d < base, value d.digitChar = d) (n : Nat) :
    (Nat.toDigits base n).foldl (fun sum c => base * sum + value c) 0 = n := by
  induction n using Nat.strongRecOn with
  | ind n ih =>
      rw [Nat.toDigits_eq_if one]
      split
      · next small => simp [digit n small]
      · next large =>
        have smaller : n / base < n := Nat.div_lt_self (by omega) one
        have last : value (n % base).digitChar = n % base := digit _ (Nat.mod_lt _ (by omega))
        rw [List.foldl_append, ih _ smaller]
        simp only [List.foldl_cons, List.foldl_nil, last]
        exact Nat.div_add_mod n base

/-- Only zero starts with the digit zero. -/
theorem head?_toDigits (one : 1 < base) (n : Nat) :
    (Nat.toDigits base n).head? = some '0' ↔ n = 0 := by
  induction n using Nat.strongRecOn with
  | ind n ih =>
      rw [Nat.toDigits_eq_if one]
      split
      · simp
      · next large =>
        have smaller : n / base < n := Nat.div_lt_self (by omega) one
        have positive : 0 < n / base := Nat.div_pos (by omega) (by omega)
        have front : (Nat.toDigits base (n / base) ++ [(n % base).digitChar]).head? =
            (Nat.toDigits base (n / base)).head? := by
          rw [List.head?_append, Option.or_of_isSome]
          exact List.isSome_head?.2 Nat.toDigits_ne_nil
        rw [front, ih _ smaller]
        omega

end Base

/-! ## Decimal digits -/

/-- The digits of a number are digits. -/
theorem isDigit_toDigits (n : Nat) : ∀ c ∈ Nat.toDigits 10 n, c.isDigit = true :=
  fun _ mem => Nat.isDigit_of_mem_toDigits (by decide) (by decide) mem

@[simp]
theorem ofDigits_toDigits (n : Nat) : ofDigits (Nat.toDigits 10 n) = n :=
  foldl_toDigits (by decide) (fun _ small => Nat.toNat_digitChar_sub_48_of_lt_ten small) n

/-- A number and what follows its digits are told apart. -/
theorem toDigits_append_inj {m n : Nat} {rest rest' : List Char} (stop : Stops Char.isDigit rest)
    (stop' : Stops Char.isDigit rest')
    (same : Nat.toDigits 10 m ++ rest = Nat.toDigits 10 n ++ rest') : m = n ∧ rest = rest' := by
  have front := scan_append (isDigit_toDigits m) stop
  have front' := scan_append (isDigit_toDigits n) stop'
  rw [same] at front
  have digits : Nat.toDigits 10 m = Nat.toDigits 10 n := front.1.symm.trans front'.1
  refine ⟨?_, front.2.symm.trans front'.2⟩
  rw [← ofDigits_toDigits m, digits, ofDigits_toDigits]

/-- Different numbers are written differently. -/
theorem toString_inj {m n : Nat} : toString m = toString n ↔ m = n := by
  constructor
  · intro same
    have digits : Nat.toDigits 10 m = Nat.toDigits 10 n := by
      rw [← Nat.toList_repr, ← Nat.toList_repr]
      exact congrArg String.toList same
    rw [← ofDigits_toDigits m, digits, ofDigits_toDigits]
  · rintro rfl
    rfl

end MediaHarvest.Number
