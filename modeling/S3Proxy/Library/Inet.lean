import Mathlib.Tactic

/-!
# Internet addresses as texts

The textual forms of IPv4 addresses (four decimal octets) and of IPv6 addresses: eight groups of
hexadecimal digits, a run of which may be left out at a `::`, and the last two of which may be
written as an IPv4 address.  `isV4`, `isV6` and `isAddress` are tests that can be run.

What a program relies on that looks for addresses in a text is which characters they are made of,
and that there are two colons at least in an IPv6 address.

## Main results

`legal_of_isAddress` is the first of the two: every character of an address is `Legal`, that is a
digit of either kind, a dot or a colon.  It is put together along the definitions, from
`legal_of_hextet` over `legal_of_groups` and `legal_of_abbreviates` to `legal_of_isV6`, which counts
the colons as well.  `toNat_of_legal` places these characters among all the others, so that white
space and brackets are none of them.

From the number of colons follows `isAddress_append_of_isV4`: an IPv4 address with a colon and a
port behind it is not an address.  `isAddress_bracket_cons` is the same for a text that begins with
a bracket.

## What is left out

Zone identifiers, which depend on the interfaces of a machine, are no part of an address here.

## Where it is used

`Server.Address` finds the client's address in the text a proxy announces, and cites these lemmas
for what the trimming and the cut at the port do to it.
-/

namespace Inet

/-- A decimal number of up to 255, without leading zeros. -/
def octet (l : List Char) : Bool :=
  !l.isEmpty && l.all Char.isDigit && (l == ['0'] || l.head? != some '0') &&
    Nat.ofDigitChars 10 l 0 ≤ 255

def isV4 (l : List Char) : Bool := (l.splitOn '.').length == 4 && (l.splitOn '.').all octet

def isHex (c : Char) : Bool := c.isDigit || 'a' ≤ c && c ≤ 'f' || 'A' ≤ c && c ≤ 'F'

/-- A group of 16 bits. -/
def hextet (l : List Char) : Bool := !l.isEmpty && l.length ≤ 4 && l.all isHex

/-- How many groups the parts between colons stand for. -/
def groups : List (List Char) → Option ℕ
  | [] => some 0
  | [part] => if hextet part then some 1 else if isV4 part then some 2 else none
  | part :: parts => if hextet part then (groups parts).map (· + 1) else none

/-- The groups behind a `::`. -/
def trailing (l : List Char) : Option ℕ := if l.isEmpty then some 0 else groups (l.splitOn ':')

/-- The groups in front of a `::`. -/
def leading (l : List Char) : Option ℕ :=
  if l.isEmpty then some 0
  else if (l.splitOn ':').all hextet then some (l.splitOn ':').length else none

/-- The two sides of a `::`. -/
def abbreviates (left right : List Char) : Bool :=
  match leading left, trailing right with
  | some m, some n => m + n ≤ 7
  | _, _ => false

def isV6 (l : List Char) : Bool :=
  groups (l.splitOn ':') == some 8 ||
    (List.range l.length).any fun i =>
      (l.drop i).take 2 == [':', ':'] && abbreviates (l.take i) (l.drop (i + 2))

def isAddress (l : List Char) : Bool := isV4 l || isV6 l

example : isAddress "2001:db8::1".toList = true := by decide

example : isAddress "::ffff:192.0.2.1".toList = true := by decide

variable {l : List Char} {c sep : Char}

/-! ### Parts -/

variable (sep) in
/-- A character is a separator or in one of the parts. -/
lemma mem_splitOn (h : c ∈ l) : c = sep ∨ ∃ part ∈ l.splitOn sep, c ∈ part := by
  induction l with
  | nil => cases h
  | cons a l ih =>
      rw [List.splitOn_cons_eq_if_modifyHead]
      obtain ⟨part, parts, hparts⟩ := List.exists_cons_of_ne_nil (List.splitOn_ne_nil sep l)
      rw [hparts] at ih ⊢
      rcases List.mem_cons.mp h with rfl | hl
      · by_cases hsep : c = sep
        · exact .inl hsep
        · simp [hsep]
      · refine (ih hl).imp_right ?_
        rintro ⟨part', hpart', hc⟩
        split_ifs
        · exact ⟨part', List.mem_cons_of_mem _ hpart', hc⟩
        · rcases List.mem_cons.mp hpart' with rfl | hpart'
          · exact ⟨_, List.mem_cons_self, List.mem_cons_of_mem a hc⟩
          · exact ⟨part', List.mem_cons_of_mem _ hpart', hc⟩

lemma length_splitOn : (l.splitOn sep).length = l.count sep + 1 := by
  induction l with
  | nil => rfl
  | cons a l ih =>
      rw [List.splitOn_cons_eq_if_modifyHead, List.count_cons]
      split_ifs with hsep
      · rw [List.length_cons, ih]
      · rw [List.length_modifyHead, ih, add_zero]

/-! ### The characters of an address -/

/-- The characters of a dotted address. -/
lemma isDigit_or_of_isV4 (h : isV4 l = true) : ∀ c ∈ l, c.isDigit = true ∨ c = '.' := by
  intro c hc
  rw [isV4, Bool.and_eq_true, List.all_eq_true] at h
  rcases mem_splitOn '.' hc with hsep | ⟨part, hpart, hmem⟩
  · exact .inr hsep
  · have hoctet := h.2 part hpart
    simp only [octet, Bool.and_eq_true, List.all_eq_true] at hoctet
    exact .inl (hoctet.1.1.2 c hmem)

/-- The characters of an address. -/
def Legal (c : Char) : Prop := isHex c = true ∨ c = '.' ∨ c = ':'

/-- Where the characters of an address are among all characters. -/
lemma toNat_of_legal (h : Legal c) :
    46 ≤ c.toNat ∧ c.toNat ≤ 90 ∨ 97 ≤ c.toNat ∧ c.toNat ≤ 102 := by
  have hle : ∀ {a b : Char}, (decide (a ≤ b)) = true → a.toNat ≤ b.toNat := fun h =>
    UInt32.le_iff_toNat_le.mp (Char.le_def.mp (of_decide_eq_true h))
  rcases h with hhex | rfl | rfl
  · simp only [isHex, Bool.or_eq_true, Bool.and_eq_true] at hhex
    rcases hhex with (hdigit | ⟨hlo, hhi⟩) | ⟨hlo, hhi⟩
    · have hrange := Char.isDigit_iff_toNat.mp hdigit
      have h0 : '0'.toNat = 48 := rfl
      have h9 : '9'.toNat = 57 := rfl
      omega
    · exact .inr ⟨hle hlo, hle hhi⟩
    · have hlo' := hle hlo
      have hhi' := hle hhi
      have hA : 'A'.toNat = 65 := rfl
      have hF : 'F'.toNat = 70 := rfl
      omega
  · decide
  · decide

lemma legal_of_isV4 (h : isV4 l = true) : ∀ c ∈ l, Legal c := by
  intro c hc
  rcases isDigit_or_of_isV4 h c hc with hdigit | hdot
  · exact .inl (by simp [isHex, hdigit])
  · exact .inr (.inl hdot)

lemma legal_of_hextet (h : hextet l = true) : ∀ c ∈ l, Legal c := by
  intro c hc
  simp only [hextet, Bool.and_eq_true, List.all_eq_true] at h
  exact .inl (h.2 c hc)

/-- A part stands for one group, but for the last, which may stand for two. -/
lemma legal_of_groups {parts : List (List Char)} {n : ℕ} (h : groups parts = some n) :
    (∀ part ∈ parts, ∀ c ∈ part, Legal c) ∧ n ≤ parts.length + 1 := by
  induction parts using groups.induct generalizing n with
  | case1 =>
      cases h
      exact ⟨nofun, Nat.zero_le _⟩
  | case2 part hpart =>
      rw [groups, if_pos hpart] at h
      cases h
      exact ⟨by simpa using legal_of_hextet hpart, by simp⟩
  | case3 part hpart hv4 =>
      rw [groups, if_neg hpart, if_pos hv4] at h
      cases h
      exact ⟨by simpa using legal_of_isV4 hv4, by simp⟩
  | case4 part hpart hv4 =>
      rw [groups, if_neg hpart, if_neg hv4] at h
      cases h
  | case5 part parts hne hpart ih =>
      rw [groups.eq_3 _ _ hne, if_pos hpart] at h
      obtain ⟨m, hm, rfl⟩ := Option.map_eq_some_iff.mp h
      obtain ⟨hlegal, hle⟩ := ih hm
      refine ⟨?_, by simpa using hle⟩
      rw [List.forall_mem_cons]
      exact ⟨legal_of_hextet hpart, hlegal⟩
  | case6 part parts hne hpart =>
      rw [groups.eq_3 _ _ hne, if_neg hpart] at h
      cases h

lemma legal_of_parts (h : ∀ part ∈ l.splitOn ':', ∀ c ∈ part, Legal c) : ∀ c ∈ l, Legal c := by
  intro c hc
  rcases mem_splitOn ':' hc with rfl | ⟨part, hpart, hmem⟩
  · exact .inr (.inr rfl)
  · exact h part hpart c hmem

lemma legal_of_abbreviates {left right : List Char} (h : abbreviates left right = true) :
    (∀ c ∈ left, Legal c) ∧ ∀ c ∈ right, Legal c := by
  unfold abbreviates at h
  constructor
  · cases hleft : leading left with
    | none => simp [hleft] at h
    | some m =>
        unfold leading at hleft
        split_ifs at hleft with hempty hparts
        · simp [List.isEmpty_iff.mp hempty]
        · rw [List.all_eq_true] at hparts
          exact legal_of_parts fun part hpart => legal_of_hextet (hparts part hpart)
  · cases hright : trailing right with
    | none => simp [hright] at h
    | some n =>
        unfold trailing at hright
        split_ifs at hright with hempty
        · simp [List.isEmpty_iff.mp hempty]
        · exact legal_of_parts (legal_of_groups hright).1

/-- **What an IPv6 address looks like.** -/
lemma legal_of_isV6 (h : isV6 l = true) : (∀ c ∈ l, Legal c) ∧ 2 ≤ l.count ':' := by
  rw [isV6, Bool.or_eq_true, beq_iff_eq, List.any_eq_true] at h
  rcases h with hfull | ⟨i, -, habbreviated⟩
  · obtain ⟨hlegal, hlength⟩ := legal_of_groups hfull
    rw [length_splitOn] at hlength
    exact ⟨legal_of_parts hlegal, by omega⟩
  · rw [Bool.and_eq_true, beq_iff_eq] at habbreviated
    obtain ⟨hcolons, hsides⟩ := habbreviated
    obtain ⟨hleft, hright⟩ := legal_of_abbreviates hsides
    have hparts : l = l.take i ++ ([':', ':'] ++ l.drop (i + 2)) := by
      rw [← hcolons, ← List.drop_drop, List.take_append_drop, List.take_append_drop]
    constructor
    · rw [hparts]
      intro c hc
      simp only [List.mem_append] at hc
      rcases hc with hc | hc | hc
      · exact hleft c hc
      · have hcolon : c = ':' := by simpa using hc
        exact .inr (.inr hcolon)
      · exact hright c hc
    · rw [hparts, List.count_append, List.count_append]
      have htwo : [':', ':'].count ':' = 2 := by decide
      omega

lemma legal_of_isAddress (h : isAddress l = true) : ∀ c ∈ l, Legal c := by
  rw [isAddress, Bool.or_eq_true] at h
  rcases h with hv4 | hv6
  · exact legal_of_isV4 hv4
  · exact (legal_of_isV6 hv6).1

lemma colon_notMem_of_isV4 (h : isV4 l = true) : ':' ∉ l := by
  intro hmem
  rcases isDigit_or_of_isV4 h _ hmem with hdigit | hdot
  · exact absurd hdigit (by decide)
  · exact absurd hdot (by decide)

/-- With a number behind it an IPv4 address is not an address. -/
lemma isAddress_append_of_isV4 {port : List Char} (h : isV4 l = true) (hport : ':' ∉ port) :
    isAddress (l ++ ':' :: port) = false := by
  rw [isAddress, Bool.or_eq_false_iff, ← Bool.not_eq_true, ← Bool.not_eq_true]
  constructor
  · intro hv4
    exact colon_notMem_of_isV4 hv4 (by simp)
  · intro hv6
    have hcount := (legal_of_isV6 hv6).2
    rw [List.count_append, List.count_cons_self,
      List.count_eq_zero.mpr (colon_notMem_of_isV4 h), List.count_eq_zero.mpr hport] at hcount
    omega

/-- A bracket does not begin an address. -/
lemma isAddress_bracket_cons : isAddress ('[' :: l) = false := by
  rw [← Bool.not_eq_true]
  intro h
  have hrange := toNat_of_legal (legal_of_isAddress h '[' List.mem_cons_self)
  have hbracket : '['.toNat = 91 := rfl
  omega

end Inet
