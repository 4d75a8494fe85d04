import Comsat.Lib.Text

set_option relaxedAutoImplicit false
set_option autoImplicit false

/-!
# Internet addresses

The texts of IPv4 and IPv6 addresses, and the looser spellings of IPv4 addresses that the standard
of URLs allows in a host.

## Main definitions

* `Ipv4.parse`, `Ipv6.parse` — the strict texts of addresses.
* `Ipv4.numbers`, `Ipv4.endsInNumber` — the spellings of an IPv4 address in a URL: up to four
  decimal, octal or hexadecimal numbers, with a dot behind them or not.

## Main results

* `Ipv4.numbers_of_parse` — the strict text of an address is one of its spellings.
* `Ipv6.parse_ipv4` — no text is an address of both kinds.
-/

namespace Internet

/-! ## Numerals -/

/-- The value of a digit up to `f`. -/
def digitValue (c : Char) : Option ℕ :=
  if c.isDigit then some (c.toNat - 0x30)
  else if 'a' ≤ c ∧ c ≤ 'f' then some (c.toNat - 0x61 + 10)
  else if 'A' ≤ c ∧ c ≤ 'F' then some (c.toNat - 0x41 + 10)
  else none

/-- The number that digits stand for. -/
def numeral (radix : ℕ) (digits : List Char) : Option ℕ :=
  digits.foldlM (fun n c => (digitValue c).bind fun d =>
    if d < radix then some (radix * n + d) else none) 0

namespace Ipv4

/-! ## IPv4 -/

/-- A part of the strict text: a decimal number up to 255 without leading zeros. -/
def octet (digits : List Char) : Option ℕ :=
  if digits ≠ [] ∧ digits.length ≤ 3 ∧ digits.all Char.isDigit ∧
      (digits.head? = some '0' → digits = ['0']) then
    (numeral 10 digits).filter fun n => n ≤ 255
  else none

/-- Reads the strict text of an address: four decimal numbers. -/
def parse (value : List Char) : Option ℕ :=
  match value.splitOn '.' with
  | [a, b, c, d] => do
    return (((← octet a) * 256 + (← octet b)) * 256 + (← octet c)) * 256 + (← octet d)
  | _ => none

/-- A number of a spelling: hexadecimal, octal or decimal. -/
def number : List Char → Option ℕ
  | [] => none
  | '0' :: 'x' :: digits | '0' :: 'X' :: digits => numeral 16 digits
  | '0' :: c :: digits => numeral 8 (c :: digits)
  | digits => numeral 10 digits

/-- The parts between the dots; a dot behind the last one is dropped. -/
def labels (value : List Char) : List (List Char) :=
  let parts := value.splitOn '.'
  if 1 < parts.length ∧ parts.getLast? = some [] then parts.dropLast else parts

/-- Whether the last part is a number. -/
def endsInNumber (value : List Char) : Bool :=
  (labels value).getLast?.any fun last =>
    (last ≠ [] && last.all Char.isDigit) || (number last).isSome

/-- Reads any spelling of an address: the last number fills up what the others leave. -/
def numbers (value : List Char) : Option ℕ := do
  let values ← (labels value).mapM number
  let last ← values.getLast?
  if values.length ≤ 4 ∧ values.dropLast.all (fun n => n ≤ 255) ∧ last < 256 ^ (5 - values.length) then
    some (values.dropLast.foldl (fun n value => n * 256 + value) 0 * 256 ^ (5 - values.length) + last)
  else none

/-- Spellings of one address. -/
example : numbers "127.0.0.1".toList = some 2130706433 ∧ numbers "0x7f.1".toList = some 2130706433 ∧
    numbers "017700000001.".toList = some 2130706433 := by decide

/-! ### The strict text is a spelling -/

/-- A part of the strict text is a number of a spelling. -/
lemma number_of_octet {digits : List Char} {n : ℕ} (h : octet digits = some n) :
    number digits = some n ∧ n ≤ 255 ∧ digits ≠ [] ∧ digits.all Char.isDigit = true := by
  unfold octet at h
  split at h
  · rename_i hdigits
    obtain ⟨hne, hlength, hall, hzero⟩ := hdigits
    obtain ⟨hnumeral, hle⟩ := Option.filter_eq_some_iff.mp h
    refine ⟨?_, by simpa using hle, hne, hall⟩
    unfold number
    split
    · exact absurd rfl hne
    · simp at hall
    · simp at hall
    · exact absurd (hzero rfl) (by simp)
    · exact hnumeral
  · exact absurd h (by simp)

/-- The parts of a strict text. -/
lemma parse_eq_some {value : List Char} {address : ℕ} (h : parse value = some address) :
    ∃ a b c d n₁ n₂ n₃ n₄, value.splitOn '.' = [a, b, c, d] ∧ octet a = some n₁ ∧
      octet b = some n₂ ∧ octet c = some n₃ ∧ octet d = some n₄ ∧
      address = ((n₁ * 256 + n₂) * 256 + n₃) * 256 + n₄ := by
  unfold parse at h
  split at h
  · rename_i a b c d hparts
    simp only [Option.bind_eq_bind, Option.bind_eq_some_iff, Option.pure_def, Option.some.injEq] at h
    obtain ⟨n₁, h₁, n₂, h₂, n₃, h₃, n₄, h₄, rfl⟩ := h
    exact ⟨a, b, c, d, n₁, n₂, n₃, n₄, hparts, h₁, h₂, h₃, h₄, rfl⟩
  · exact absurd h (by simp)

/-- A strict text holds digits and dots. -/
lemma chars_of_parse {value : List Char} {address : ℕ} (h : parse value = some address) :
    ∀ c ∈ value, c.isDigit = true ∨ c = '.' := by
  obtain ⟨a, b, c, d, n₁, n₂, n₃, n₄, hparts, h₁, h₂, h₃, h₄, -⟩ := parse_eq_some h
  intro character hmem
  have hjoin : ['.'].intercalate (value.splitOn '.') = value := List.intercalate_splitOn '.'
  rw [← hjoin, hparts] at hmem
  rcases Text.mem_of_mem_intercalate hmem with ⟨part, hpart, hin⟩ | hdot
  · have hall : part.all Char.isDigit = true := by
      simp only [List.mem_cons, List.not_mem_nil, or_false] at hpart
      rcases hpart with rfl | rfl | rfl | rfl
      · exact (number_of_octet h₁).2.2.2
      · exact (number_of_octet h₂).2.2.2
      · exact (number_of_octet h₃).2.2.2
      · exact (number_of_octet h₄).2.2.2
    exact .inl (List.all_eq_true.mp hall character hin)
  · exact .inr (by simpa using hdot)

/-- **The strict text is a spelling** of its address, and ends in a number. -/
theorem numbers_of_parse {value : List Char} {address : ℕ} (h : parse value = some address) :
    endsInNumber value = true ∧ numbers value = some address := by
  obtain ⟨a, b, c, d, n₁, n₂, n₃, n₄, hparts, h₁, h₂, h₃, h₄, rfl⟩ := parse_eq_some h
  obtain ⟨h₁, hle₁, -, -⟩ := number_of_octet h₁
  obtain ⟨h₂, hle₂, -, -⟩ := number_of_octet h₂
  obtain ⟨h₃, hle₃, -, -⟩ := number_of_octet h₃
  obtain ⟨h₄, hle₄, hne, hdigits⟩ := number_of_octet h₄
  have hlabels : labels value = [a, b, c, d] := by
    rw [labels, hparts, if_neg (by simpa using hne)]
  refine ⟨?_, ?_⟩
  · simp [endsInNumber, hlabels, h₄]
  · simp [numbers, hlabels, h₁, h₂, h₃, h₄, hle₁, hle₂, hle₃]
    omega

/-- What ends in a dot and a last part that is no number does not end in a number. -/
lemma not_endsInNumber_append {first last : List Char} (hdot : '.' ∉ last) (hne : last ≠ [])
    (hdigits : last.all Char.isDigit = false) (hnumber : number last = none) :
    endsInNumber (first ++ '.' :: last) = false := by
  have hlabels : (labels (first ++ '.' :: last)).getLast? = some last := by
    rw [labels, List.splitOn_append_cons_self, List.splitOn_eq_singleton hdot, if_neg]
    · simp
    · simp [hne]
  rw [endsInNumber, hlabels]
  simp [hdigits, hnumber]

end Ipv4

namespace Ipv6

/-! ## IPv6 -/

/-- A group: up to four hexadecimal digits. -/
def group (digits : List Char) : Option ℕ :=
  if digits ≠ [] ∧ digits.length ≤ 4 then numeral 16 digits else none

/-- The groups between the colons. The last two may be written as an IPv4 address where that is
allowed. -/
def groupsOf (ipv4 : Bool) : List (List Char) → Option (List ℕ)
  | [] => some []
  | [last] =>
    match group last with
    | some n => some [n]
    | none => if ipv4 then (Ipv4.parse last).map fun n => [n / 65536, n % 65536] else none
  | first :: second :: rest => do return (← group first) :: (← groupsOf ipv4 (second :: rest))

/-- The groups of a text; the empty text has none. -/
def groups (ipv4 : Bool) (value : List Char) : Option (List ℕ) :=
  if value = [] then some [] else groupsOf ipv4 (value.splitOn ':')

/-- What stands before and behind the first two colons in a row. -/
def splitDouble : List Char → Option (List Char × List Char)
  | ':' :: ':' :: rest => some ([], rest)
  | c :: rest => (splitDouble rest).map fun parts => (c :: parts.1, parts.2)
  | [] => none

/-- The address of eight groups. -/
def address (groups : List ℕ) : ℕ := groups.foldl (fun n group => n * 65536 + group) 0

/-- Reads the text of an address: eight groups, of which two colons may stand for some zeros. -/
def parse (value : List Char) : Option ℕ :=
  match splitDouble value with
  | none => ((groups true value).filter fun all => all.length = 8).map address
  | some (first, last) => do
    let before ← groups false first
    let behind ← groups true last
    if before.length + behind.length ≤ 7 then
      some (address (before ++ List.replicate (8 - before.length - behind.length) 0 ++ behind))
    else none

/-- Texts of addresses. -/
example : parse "::1".toList = some 1 ∧ parse "::ffff:10.0.0.1".toList = some 0xFFFF0A000001 ∧
    parse "1:2:3:4:5:6:7::8".toList = none := by decide

/-- Two colons are colons. -/
lemma colon_mem_of_splitDouble {value : List Char} {parts : List Char × List Char}
    (h : splitDouble value = some parts) : ':' ∈ value := by
  fun_induction splitDouble value generalizing parts with
  | case1 rest => exact List.mem_cons_self ..
  | case2 c rest hne ih =>
    obtain ⟨others, hothers, -⟩ := Option.map_eq_some_iff.mp h
    exact List.mem_cons_of_mem _ (ih hothers)
  | case3 => exact absurd h (by simp)

/-- What holds no colon has two groups at most. -/
lemma length_groups_le {value : List Char} {all : List ℕ} (hcolon : ':' ∉ value)
    (h : groups true value = some all) : all.length ≤ 2 := by
  unfold groups at h
  split at h
  · exact Option.some.inj h ▸ Nat.zero_le _
  · rw [List.splitOn_eq_singleton hcolon, groupsOf] at h
    split at h
    · exact Option.some.inj h ▸ by simp
    · obtain ⟨n, -, rfl⟩ := Option.map_eq_some_iff.mp h
      exact le_refl _

/-- An address has a colon. -/
lemma colon_mem_of_parse {value : List Char} {n : ℕ} (h : parse value = some n) : ':' ∈ value := by
  unfold parse at h
  split at h
  · by_contra hcolon
    obtain ⟨all, hall, -⟩ := Option.map_eq_some_iff.mp h
    obtain ⟨hgroups, hlength⟩ := Option.filter_eq_some_iff.mp hall
    have htwo := length_groups_le hcolon hgroups
    simp only [decide_eq_true_eq] at hlength
    omega
  · rename_i hsplit
    exact colon_mem_of_splitDouble hsplit

/-- **No text is an address of both kinds.** -/
theorem parse_ipv4 {value : List Char} {n : ℕ} (h : parse value = some n) :
    Ipv4.parse value = none := by
  cases hv4 : Ipv4.parse value with
  | none => rfl
  | some address =>
    rcases Ipv4.chars_of_parse hv4 ':' (colon_mem_of_parse h) with hdigit | hdot
    · exact absurd hdigit (by decide)
    · exact absurd hdot (by decide)

end Ipv6

end Internet
