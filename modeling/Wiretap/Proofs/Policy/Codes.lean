import Wiretap.Proofs.Policy.StatusText
/-!
# Statuses and their codes

A status has fewer milliseconds to say than a code has numbers, and a code has one number, -1, that
is no refusal after a delay.  So neither turns into the other without loss, and what is lost is
known on both sides.

* `Status.toCode_ofCode` — a code comes back as the nearest one that a status can say;
* `Status.ofCode_toCode` — a status comes back as it is, but for the delays of 0 and of 1 that a
  code cannot say (`Status.throughCode`);
* `status_codes_exact` — both, and that the decimal text of a code is a text of its status.
-/

namespace Wiretap

namespace Status

/-- What a status comes back as when it is written as a code: a throttle without delay is open, and
a refusal takes at least 2 milliseconds. -/
def throughCode : Status → Status
  | opened => opened
  | closed => closed
  | throttle ms => if ms = 0 then opened else throttle ms
  | refuseAfter ms => if ms = 0 ∨ ms = 1 then refuseAfter 2 else refuseAfter ms

/-- The milliseconds to wait, none where there is no delay. -/
def waiting (s : Status) : Nat := (s.delay?.map UInt32.toNat).getD 0

/-! ## A code, by way of its status -/

/-- **A code comes back as the nearest one that a status can say.** -/
theorem toCode_ofCode (n : Int) :
    (ofCode n).toCode = max (-(greatestDelay : Int)) (min n greatestDelay) := by
  have hgreatest : greatestDelay = 4294967295 := rfl
  unfold ofCode
  by_cases hopened : n = 0
  · subst hopened
    rfl
  by_cases hclosed : n = -1
  · subst hclosed
    rfl
  rw [if_neg hopened, if_neg hclosed]
  by_cases hpositive : 0 < n
  · rw [if_pos hpositive, toCode, toNat_cutDelay]
    omega
  · rw [if_neg hpositive, toCode, toNat_cutDelay]
    omega

/-! ## A status, by way of its code -/

/-- A delay that can be told is not cut. -/
theorem cutDelay_toNat (ms : UInt32) : cutDelay ms.toNat = ms := by
  have hbound : ms.toNat ≤ greatestDelay := Nat.le_pred_of_lt ms.toNat_lt
  rw [cutDelay, Nat.min_eq_left hbound, UInt32.ofNat_toNat]

/-- **A status comes back as it is**, but for the delays that a code cannot say. -/
theorem ofCode_toCode (s : Status) : ofCode s.toCode = s.throughCode := by
  cases s with
  | opened => rfl
  | closed => rfl
  | throttle ms =>
    rw [throughCode]
    by_cases hms : ms = 0
    · subst hms
      rfl
    · have hpositive : 0 < ms.toNat := Nat.pos_of_ne_zero fun h => hms (UInt32.toNat_inj.1 h)
      have hopened : ¬ (ms.toNat : Int) = 0 := by omega
      have hclosed : ¬ (ms.toNat : Int) = -1 := by omega
      rw [if_neg hms, toCode, ofCode, if_neg hopened, if_neg hclosed,
        if_pos (Int.natCast_pos.2 hpositive), Int.natAbs_natCast, cutDelay_toNat]
  | refuseAfter ms =>
    rw [throughCode]
    by_cases hms : ms = 0 ∨ ms = 1
    · rw [if_pos hms]
      rcases hms with rfl | rfl
      · rfl
      · rfl
    · obtain ⟨hzero, hone⟩ := not_or.1 hms
      have htwo : 2 ≤ ms.toNat := by
        have hzero' : ms.toNat ≠ 0 := fun h => hzero (UInt32.toNat_inj.1 h)
        have hone' : ms.toNat ≠ 1 := fun h => hone (UInt32.toNat_inj.1 h)
        omega
      have hopened : ¬ (-(ms.toNat : Int)) = 0 := by omega
      have hclosed : ¬ (-(ms.toNat : Int)) = -1 := by omega
      have hpositive : ¬ 0 < -(ms.toNat : Int) := by omega
      rw [if_neg hms, toCode, Nat.max_eq_left htwo, ofCode, if_neg hopened, if_neg hclosed,
        if_neg hpositive, Int.natAbs_neg, Int.natAbs_natCast, cutDelay_toNat]

/-- A status that went through its code waits no shorter, and 2 milliseconds longer at most. -/
theorem waiting_throughCode (s : Status) :
    s.waiting ≤ s.throughCode.waiting ∧ s.throughCode.waiting ≤ s.waiting + 2 := by
  have hsame : s.waiting ≤ s.waiting ∧ s.waiting ≤ s.waiting + 2 :=
    ⟨Nat.le_refl _, Nat.le_add_right _ _⟩
  cases s with
  | opened => exact hsame
  | closed => exact hsame
  | throttle ms =>
    rw [throughCode]
    by_cases hms : ms = 0
    · subst hms
      decide
    · rw [if_neg hms]
      exact hsame
  | refuseAfter ms =>
    rw [throughCode]
    by_cases hms : ms = 0 ∨ ms = 1
    · rcases hms with rfl | rfl
      · decide
      · decide
    · rw [if_neg hms]
      exact hsame

/-- The decimal text of a code is a text of its status. -/
theorem reads_toString (n : Int64) : Reads (toString n) (.ofCode n.toInt) := by
  have hsigned : Text.Signed (toString n).toList n.toInt := Text.signed_toString n.toInt
  have htrim : Text.trim (toString n) = toString n := by
    rw [Text.trim, Text.trimChars_of_no_blank hsigned.not_isBlank, String.ofList_toList]
  refine .code ?_ n.le_toInt n.toInt_lt
  rw [htrim]
  exact hsigned

end Status

/-- **Statuses and codes.**  A code comes back from its status as the nearest code between
-(2^32 - 1) and 2^32 - 1, and its decimal text is read as that status.  A status comes back from its
code as it is, but that a throttle of 0 is open and that refusals after 0 and after 1 are refusals
after 2; so it refuses exactly if it did, and waits at most 2 milliseconds longer. -/
theorem status_codes_exact :
    (∀ n : Int64,
      (Status.ofCode n.toInt).toCode = max (-(2 ^ 32 - 1)) (min n.toInt (2 ^ 32 - 1)) ∧
      Status.parse (toString n) = .ok (.ofCode n.toInt)) ∧
    ∀ s : Status,
      Status.ofCode s.toCode = s.throughCode ∧
      (Status.ofCode s.toCode).isRefused = s.isRefused ∧
      s.waiting ≤ (Status.ofCode s.toCode).waiting ∧
      (Status.ofCode s.toCode).waiting ≤ s.waiting + 2 := by
  constructor
  · intro n
    exact ⟨Status.toCode_ofCode n.toInt, Status.parse_of_reads (Status.reads_toString n)⟩
  · intro s
    refine ⟨s.ofCode_toCode, s.isRefused_ofCode_toCode, ?_⟩
    rw [s.ofCode_toCode]
    exact s.waiting_throughCode

end Wiretap
