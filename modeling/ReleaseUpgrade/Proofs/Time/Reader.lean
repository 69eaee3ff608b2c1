import ReleaseUpgrade.Proofs.Time.Calendar
import ReleaseUpgrade.Time.Reader

/-!
# Reading what has been written

The time of a condition is written with full numbers, and reading it gives the instant back.

* `Instant.numberUpTo?_padded`      a number that has been written is read back;
* `Instant.Sound`                   an instant that the calendar of conditions has;
* `Instant.sound_of_ofCondition?`   only such instants are read;
* `Instant.ofCondition?_text`       each of them is read back from its text.
-/

namespace ReleaseUpgrade.Instant

/-- the characters do not go on with a digit -/
def Stops (cs : List Char) : Prop := ∀ c ∈ cs.head?, c.isDigit = false

theorem stops_cons {c : Char} (h : c.isDigit = false) (cs : List Char) : Stops (c :: cs) :=
  fun _ hc => Option.some.inj hc ▸ h

section
variable {limit width n : Nat} {ds rest : List Char}

theorem Stops.takeWhile_take (h : Stops rest) (k : Nat) :
    (rest.take k).takeWhile Char.isDigit = [] := by
  cases rest with
  | nil => rw [List.take_nil, List.takeWhile_nil]
  | cons c rest =>
    cases k with
    | zero => rw [List.take_zero, List.takeWhile_nil]
    | succ k =>
      rw [List.take_succ_cons, List.takeWhile_cons_of_neg]
      rw [h c rfl]
      exact Bool.false_ne_true

/-- the digits in front end where there is no digit, or where enough of them have been read -/
theorem digitsUpTo_append (hds : ∀ c ∈ ds, c.isDigit = true) (hlimit : ds.length ≤ limit)
    (hstop : ds.length = limit ∨ Stops rest) :
    digitsUpTo limit (ds ++ rest) = (ds.map fun c => c.toNat - 48, rest) := by
  have hnone : (rest.take (limit - ds.length)).takeWhile Char.isDigit = [] := by
    obtain hfull | hstop := hstop
    · rw [hfull, Nat.sub_self, List.take_zero, List.takeWhile_nil]
    · exact hstop.takeWhile_take _
  rw [digitsUpTo, List.take_append, List.take_of_length_le hlimit,
    List.takeWhile_append_of_pos hds, hnone, List.append_nil, List.drop_left]

theorem toList_pushn (s : String) (c : Char) (n : Nat) :
    (s.pushn c n).toList = s.toList ++ List.replicate n c := by
  rw [String.pushn_eq_repeat_push]
  induction n with
  | zero => exact (List.append_nil _).symm
  | succ n ih => rw [Nat.repeat, String.toList_push, ih, List.append_assoc, List.replicate_succ']

theorem toList_padded (width n : Nat) :
    (padded width n).toList =
      List.replicate (width - (Nat.toDigits 10 n).length) '0' ++ Nat.toDigits 10 n := by
  rw [padded, Nat.toString_eq_ofList_toDigits]
  rw [String.toList_append, toList_pushn, String.length_ofList, String.toList_empty,
    String.toList_ofList, List.nil_append]

theorem isDigit_of_mem_padded {c : Char} (h : c ∈ (padded width n).toList) : c.isDigit = true := by
  rw [toList_padded] at h
  obtain h | h := List.mem_append.mp h
  · rw [List.eq_of_mem_replicate h]
    rfl
  · exact Nat.isDigit_of_mem_toDigits (by omega) (by omega) h

theorem padded_ne_nil (width n : Nat) : (padded width n).toList ≠ [] := by
  rw [toList_padded]
  exact List.append_ne_nil_of_right_ne_nil _ Nat.toDigits_ne_nil

/-- a number that is not too large fills the places that it has -/
theorem length_padded (hwidth : 0 < width) (h : n < Nat.pow 10 width) :
    (padded width n).toList.length = width := by
  have hle : (Nat.toDigits 10 n).length ≤ width :=
    (Nat.length_toDigits_le_iff (by omega) hwidth).mpr h
  rw [toList_padded, List.length_append, List.length_replicate]
  omega

theorem ofDigits_padded (width n : Nat) :
    ofDigits ((padded width n).toList.map fun c => c.toNat - 48) = n := by
  have hfold (ds : List Char) : ofDigits (ds.map fun c => c.toNat - 48) =
      Nat.ofDigitChars 10 ds 0 := by
    rw [ofDigits, List.foldl_map, Nat.ofDigitChars_eq_foldl]
    simp only [Nat.mul_comm]
    rfl
  rw [hfold, toList_padded, Nat.ofDigitChars_append, Nat.ofDigitChars_replicate_zero, Nat.mul_zero,
    Nat.ofDigitChars_ten_toDigits]

/-- the digits of a number that has been written are read back -/
theorem digitsUpTo_padded (width n : Nat) (hlimit : (padded width n).toList.length ≤ limit)
    (hstop : (padded width n).toList.length = limit ∨ Stops rest) :
    ∃ d ds, digitsUpTo limit ((padded width n).toList ++ rest) = (d :: ds, rest) ∧
      ofDigits (d :: ds) = n ∧ (d :: ds).length = (padded width n).toList.length := by
  rw [digitsUpTo_append (fun _ => isDigit_of_mem_padded) hlimit hstop]
  obtain ⟨d, ds, hds⟩ := List.exists_cons_of_ne_nil
    (mt List.map_eq_nil_iff.mp (padded_ne_nil width n) :
      (padded width n).toList.map (fun c => c.toNat - 48) ≠ [])
  refine ⟨d, ds, by rw [hds], ?_, ?_⟩
  · rw [← hds, ofDigits_padded]
  · rw [← hds, List.length_map]

theorem numberUpTo?_padded (hlimit : (padded width n).toList.length ≤ limit)
    (hstop : (padded width n).toList.length = limit ∨ Stops rest) :
    numberUpTo? limit ((padded width n).toList ++ rest) = some (n, rest) := by
  obtain ⟨d, ds, hread, hn, _⟩ := digitsUpTo_padded width n hlimit hstop
  rw [numberUpTo?, hread]
  dsimp only
  rw [hn]

theorem numberUpTo?_two (h : n < 100) :
    numberUpTo? 2 ((padded 2 n).toList ++ rest) = some (n, rest) := by
  have hlength : (padded 2 n).toList.length = 2 := length_padded (by omega) h
  exact numberUpTo?_padded (Nat.le_of_eq hlength) (.inl hlength)

theorem isBlank_of_isDigit {c : Char} (h : c.isDigit = true) : Text.isBlank c = false := by
  obtain ⟨hlow, hhigh⟩ := Char.isDigit_iff_toNat.mp h
  have hlow : 48 ≤ c.toNat := hlow
  have hhigh : c.toNat ≤ 57 := hhigh
  unfold Text.isBlank
  dsimp only
  generalize c.toNat = n at hlow hhigh
  simp only [Bool.or_eq_false_iff, Bool.and_eq_false_iff, decide_eq_false_iff_not]
  omega

theorem skipBlank_cons {c : Char} (h : Text.isBlank c = false) : skipBlank (c :: rest) = c :: rest :=
  List.dropWhile_cons_of_neg (by rw [h]; exact Bool.false_ne_true)

theorem exists_padded_cons (width n : Nat) :
    ∃ c cs, (padded width n).toList = c :: cs ∧ c.isDigit = true := by
  obtain ⟨c, cs, hcs⟩ := List.exists_cons_of_ne_nil (padded_ne_nil width n)
  have hmem : c ∈ (padded width n).toList := by
    rw [hcs]
    exact List.mem_cons_self
  exact ⟨c, cs, hcs, isDigit_of_mem_padded hmem⟩

theorem skipBlank_padded (width n : Nat) :
    skipBlank ((padded width n).toList ++ rest) = (padded width n).toList ++ rest := by
  obtain ⟨c, cs, hcs, hc⟩ := exists_padded_cons width n
  rw [hcs]
  exact skipBlank_cons (isBlank_of_isDigit hc)

theorem lenientYear?_of_isDigit {c : Char} {cs : List Char} (hc : c.isDigit = true) :
    lenientYear? (c :: cs) = (numberUpTo? 4 (c :: cs)).map fun (n, rest) => ((n : Int), rest) := by
  unfold lenientYear?
  split
  · rename_i heq
    obtain ⟨rfl, _⟩ := List.cons.inj heq
    exact absurd hc (by decide)
  · rename_i heq
    obtain ⟨rfl, _⟩ := List.cons.inj heq
    exact absurd hc (by decide)
  · rfl

theorem lenientYear?_padded (h : n ≤ 9999) :
    lenientYear? ((padded 4 n).toList ++ '-' :: rest) = some ((n : Int), '-' :: rest) := by
  have hpow : Nat.pow 10 4 = 10000 := rfl
  have hlength : (padded 4 n).toList.length = 4 := length_padded (by omega) (by omega)
  have hread : numberUpTo? 4 ((padded 4 n).toList ++ '-' :: rest) = some (n, '-' :: rest) :=
    numberUpTo?_padded (Nat.le_of_eq hlength) (.inl hlength)
  obtain ⟨c, cs, hcs, hc⟩ := exists_padded_cons 4 n
  rw [hcs, List.cons_append] at hread ⊢
  rw [lenientYear?_of_isDigit hc, hread]
  rfl

/-- a year that has been written is read back -/
theorem lenientYear?_yearText {y : Int} (h : y.natAbs < Nat.pow 2 63) :
    skipBlank ((yearText y).toList ++ '-' :: rest) = (yearText y).toList ++ '-' :: rest ∧
      lenientYear? ((yearText y).toList ++ '-' :: rest) = some (y, '-' :: rest) := by
  have hread : numberUpTo? ((padded 4 y.natAbs).toList ++ '-' :: rest).length
      ((padded 4 y.natAbs).toList ++ '-' :: rest) = some (y.natAbs, '-' :: rest) :=
    numberUpTo?_padded (by rw [List.length_append]; exact Nat.le_add_right _ _)
      (.inr (stops_cons rfl rest))
  unfold yearText
  split
  · rename_i hfits
    rw [Bool.and_eq_true, decide_eq_true_iff, decide_eq_true_iff] at hfits
    refine ⟨skipBlank_padded 4 _, ?_⟩
    rw [lenientYear?_padded (by omega), Int.toNat_of_nonneg hfits.1]
  · rename_i hfits
    have hminus : "-".toList = ['-'] := rfl
    have hplus : "+".toList = ['+'] := rfl
    rw [String.toList_append]
    split
    · rename_i hneg
      rw [hminus, List.cons_append, List.nil_append, List.cons_append]
      refine ⟨skipBlank_cons rfl, ?_⟩
      simp only [lenientYear?, hread, Option.bind_eq_bind, Option.bind_some, if_pos h,
        Option.map_some, Option.some.injEq, Prod.mk.injEq, and_true]
      omega
    · rename_i hpos
      rw [hplus, List.cons_append, List.nil_append, List.cons_append]
      refine ⟨skipBlank_cons rfl, ?_⟩
      simp only [lenientYear?, hread, Option.bind_eq_bind, Option.bind_some, if_pos h,
        Option.map_some, Option.some.injEq, Prod.mk.injEq, and_true]
      omega

/-- the digits of a fraction that has been written are read back -/
theorem lenientFraction?_padded (hwidth : 0 < width) (hle : width ≤ 9)
    (h : n < Nat.pow 10 width) :
    lenientFraction? (("." ++ padded width n).toList ++ 'Z' :: rest) =
      some (n * Nat.pow 10 (9 - width), 'Z' :: rest) := by
  have hpoint : ".".toList = ['.'] := rfl
  have hlimit : (padded width n).toList.length ≤
      ((padded width n).toList ++ 'Z' :: rest).length := by
    rw [List.length_append]
    exact Nat.le_add_right _ _
  have hstop : Stops ('Z' :: rest) := stops_cons rfl rest
  obtain ⟨d, ds, hread, hn, hlength⟩ := digitsUpTo_padded width n hlimit (.inr hstop)
  rw [length_padded hwidth h] at hlength
  rw [String.toList_append, hpoint, List.cons_append, List.nil_append, List.cons_append]
  simp only [lenientFraction?, hread, nanosOf]
  rw [List.take_of_length_le (by omega), hn, hlength]

theorem lenientFraction?_fractionText (h : n < 1000000000) :
    lenientFraction? ((fractionText n).toList ++ 'Z' :: rest) = some (n, 'Z' :: rest) := by
  unfold fractionText
  split
  · rename_i hzero
    rw [hzero]
    rfl
  split
  · have hn : n / 1000000 < Nat.pow 10 3 := Nat.div_lt_of_lt_mul h
    have hback : n / 1000000 * Nat.pow 10 (9 - 3) = n := Nat.div_mul_cancel (by omega)
    rw [lenientFraction?_padded (by omega) (by omega) hn, hback]
  split
  · have hn : n / 1000 < Nat.pow 10 6 := Nat.div_lt_of_lt_mul h
    have hback : n / 1000 * Nat.pow 10 (9 - 6) = n := Nat.div_mul_cancel (by omega)
    rw [lenientFraction?_padded (by omega) (by omega) hn, hback]
  · have hn : n < Nat.pow 10 9 := h
    have hback : n * Nat.pow 10 (9 - 9) = n := Nat.mul_one n
    rw [lenientFraction?_padded (by omega) (by omega) hn, hback]

end

/-- an instant that the calendar of conditions has: its day is not too far away, and a second has
been inserted only at the end of a minute -/
structure Sound (t : Instant) : Prop where
  inRange : t.inRange = true
  nanos_lt : t.nanos < 2000000000
  inserted : 1000000000 ≤ t.nanos → t.seconds % 60 = 59

/-- the parts of the text of an instant -/
theorem toList_text (t : Instant) :
    t.text.toList =
      (yearText (Calendar.ofDayNumber (t.seconds / 86400)).year).toList ++ '-' ::
        ((padded 2 (Calendar.ofDayNumber (t.seconds / 86400)).month).toList ++ '-' ::
          ((padded 2 (Calendar.ofDayNumber (t.seconds / 86400)).day).toList ++ 'T' ::
            ((padded 2 ((t.seconds % 86400).toNat / 3600)).toList ++ ':' ::
              ((padded 2 ((t.seconds % 86400).toNat / 60 % 60)).toList ++ ':' ::
                ((padded 2 t.secondOfMinute).toList ++
                  ((fractionText (t.nanos % 1000000000)).toList ++ ['Z'])))))) := by
  have hhyphen : "-".toList = ['-'] := rfl
  have hcolon : ":".toList = [':'] := rfl
  have ht : "T".toList = ['T'] := rfl
  have hz : "Z".toList = ['Z'] := rfl
  simp only [text, upToSecond, String.toList_append, hhyphen, hcolon, ht, hz, List.append_assoc,
    List.cons_append, List.nil_append]

/-- the second of the minute and the fraction give back the instant -/
theorem ofLocal_parts {t : Instant} (h : t.Sound) :
    ofLocal ⟨Calendar.ofDayNumber (t.seconds / 86400), (t.seconds % 86400).toNat / 3600,
      (t.seconds % 86400).toNat / 60 % 60, t.secondOfMinute, t.nanos % 1000000000, 0⟩ = t := by
  have hinserted := h.inserted
  have hnanos := h.nanos_lt
  obtain ⟨seconds, nanos⟩ := t
  unfold ofLocal secondOfMinute
  dsimp only at hinserted hnanos ⊢
  rw [Calendar.dayNumber_ofDayNumber, Instant.mk.injEq]
  by_cases hplain : nanos < 1000000000
  · rw [if_pos hplain, if_neg (by omega)]
    omega
  · rw [if_neg hplain, if_pos (by omega)]
    omega

theorem day_lt_of_inRange {t : Instant} (h : t.inRange = true) :
    firstDay ≤ t.seconds / 86400 ∧ t.seconds / 86400 ≤ lastDay ∧
      (Calendar.ofDayNumber (t.seconds / 86400)).year.natAbs < Nat.pow 2 63 := by
  rw [inRange, Bool.and_eq_true, decide_eq_true_iff, decide_eq_true_iff] at h
  have hfirst : firstDay = -96465292 := by decide
  have hlast : lastDay = 95026236 := by decide
  have hyear := Calendar.year_ofDayNumber_lt (n := t.seconds / 86400) (by omega)
  have hpow : Nat.pow 2 63 = 9223372036854775808 := by decide
  exact ⟨h.1, h.2, by omega⟩

theorem lt_of_isDate {d : Date} (h : Calendar.isDate d = true) : d.month < 100 ∧ d.day < 100 := by
  unfold Calendar.isDate Calendar.daysInMonth at h
  simp only [Bool.and_eq_true, decide_eq_true_eq] at h
  obtain ⟨⟨⟨_, hmonth⟩, _⟩, hday⟩ := h
  refine ⟨by omega, Nat.lt_of_le_of_lt hday ?_⟩
  split
  · split <;> omega
  · split <;> omega

theorem char?_cons {c : Char} (h : Text.isBlank c = false) (rest : List Char) :
    char? c (skipBlank (c :: rest)) = some rest := by
  rw [skipBlank_cons h]
  exact if_pos rfl

theorem ofCondition?_text {t : Instant} (h : t.Sound) : ofCondition? t.text = some t := by
  obtain ⟨hfirst, hlast, hyear⟩ := day_lt_of_inRange h.inRange
  have hdate := Calendar.isDate_ofDayNumber (t.seconds / 86400)
  have hnumber := Calendar.dayNumber_ofDayNumber (t.seconds / 86400)
  have hback := ofLocal_parts h
  obtain ⟨hmonth, hday⟩ := lt_of_isDate hdate
  rw [ofCondition?, toList_text]
  generalize Calendar.ofDayNumber (t.seconds / 86400) = d at *
  have hhour : (t.seconds % 86400).toNat / 3600 < 24 := by omega
  have hminute : (t.seconds % 86400).toNat / 60 % 60 < 60 := by omega
  have hsecond : t.secondOfMinute ≤ 60 := by
    unfold secondOfMinute
    split <;> omega
  have two {n : Nat} (hn : n < 100) (rest : List Char) :
      numberUpTo? 2 (skipBlank ((padded 2 n).toList ++ rest)) = some (n, rest) := by
    rw [skipBlank_padded, numberUpTo?_two hn]
  -- the parts are read one after the other, in the order of the text
  obtain ⟨hblank, hread⟩ := lenientYear?_yearText hyear
  rw [hblank]
  refine Option.bind_eq_some_iff.mpr ⟨_, hread, ?_⟩
  refine Option.bind_eq_some_iff.mpr ⟨_, char?_cons rfl _, ?_⟩
  refine Option.bind_eq_some_iff.mpr ⟨_, two hmonth _, ?_⟩
  refine Option.bind_eq_some_iff.mpr ⟨_, char?_cons rfl _, ?_⟩
  refine Option.bind_eq_some_iff.mpr ⟨_, two hday _, ?_⟩
  dsimp only
  rw [if_pos (by decide)]
  refine Option.bind_eq_some_iff.mpr ⟨_, rfl, ?_⟩
  refine Option.bind_eq_some_iff.mpr ⟨_, two (Nat.lt_trans hhour (by omega)) _, ?_⟩
  refine Option.bind_eq_some_iff.mpr ⟨_, char?_cons rfl _, ?_⟩
  refine Option.bind_eq_some_iff.mpr ⟨_, two (Nat.lt_trans hminute (by omega)) _, ?_⟩
  refine Option.bind_eq_some_iff.mpr ⟨_, char?_cons rfl _, ?_⟩
  refine Option.bind_eq_some_iff.mpr ⟨_, two (Nat.lt_of_le_of_lt hsecond (by omega)) _, ?_⟩
  refine Option.bind_eq_some_iff.mpr
    ⟨_, lenientFraction?_fractionText (Nat.mod_lt _ (by omega)), ?_⟩
  refine Option.bind_eq_some_iff.mpr ⟨(0, []), rfl, ?_⟩
  dsimp only
  rw [hnumber, hdate, hback, h.inRange, if_pos rfl, if_pos]
  simp only [hhour, hminute, hsecond, hfirst, hlast, decide_true, Bool.and_true]
  rfl

theorem ofDigits_lt {ds : List Nat} (h : ∀ d ∈ ds, d < 10) :
    ofDigits ds < Nat.pow 10 ds.length := by
  have hfold (ds : List Nat) (h : ∀ d ∈ ds, d < 10) (n : Nat) :
      ds.foldl (fun n d => n * 10 + d) n < (n + 1) * Nat.pow 10 ds.length := by
    induction ds generalizing n with
    | nil => exact Nat.lt_of_lt_of_eq (Nat.lt_succ_self n) (Nat.mul_one _).symm
    | cons d ds ih =>
      obtain ⟨hd, hds⟩ := List.forall_mem_cons.mp h
      refine Nat.lt_of_lt_of_le (ih hds (n * 10 + d)) ?_
      have hpow : Nat.pow 10 (d :: ds).length = 10 * Nat.pow 10 ds.length := Nat.pow_succ'
      rw [hpow, ← Nat.mul_assoc]
      exact Nat.mul_le_mul_right _ (by omega)
  exact Nat.lt_of_lt_of_eq (hfold ds h 0) (by rw [Nat.zero_add, Nat.one_mul])

theorem digit_lt_of_digitsUpTo {limit : Nat} {cs rest : List Char} {ds : List Nat}
    (h : digitsUpTo limit cs = (ds, rest)) : ∀ d ∈ ds, d < 10 := by
  intro d hd
  rw [← (Prod.mk.inj h).1] at hd
  obtain ⟨c, hc, rfl⟩ := List.mem_map.mp hd
  obtain ⟨_, hhigh⟩ := Char.isDigit_iff_toNat.mp (List.all_eq_true.mp List.all_takeWhile c hc)
  have hhigh : c.toNat ≤ 57 := hhigh
  omega

theorem nanosOf_lt {ds : List Nat} (h : ∀ d ∈ ds, d < 10) : nanosOf ds < 1000000000 := by
  have hlt := ofDigits_lt fun d hd => h d (List.mem_of_mem_take (i := 9) hd)
  have hlength : (ds.take 9).length ≤ 9 := List.length_take_le 9 ds
  unfold nanosOf
  dsimp only
  generalize ds.take 9 = first at *
  refine Nat.lt_of_lt_of_eq (Nat.mul_lt_mul_of_pos_right hlt ?_) ?_
  · exact Nat.pow_pos (by omega)
  · have hpow : Nat.pow 10 (first.length + (9 - first.length)) =
        Nat.pow 10 first.length * Nat.pow 10 (9 - first.length) := Nat.pow_add ..
    rw [← hpow, Nat.add_sub_cancel' hlength]

theorem lt_of_lenientFraction? {cs rest : List Char} {n : Nat}
    (h : lenientFraction? cs = some (n, rest)) : n < 1000000000 := by
  unfold lenientFraction? at h
  split at h
  · split at h
    · cases h
    · rename_i hread
      cases h
      exact nanosOf_lt (digit_lt_of_digitsUpTo hread)
  · cases h
    omega

theorem emod_of_lenientOffset? {cs rest : List Char} {n : Int}
    (h : lenientOffset? cs = some (n, rest)) : n % 60 = 0 := by
  have hwhole (sign : Int) (hours minutes : Nat) :
      sign * (hours * 3600 + minutes * 60) % 60 = 0 := by
    have hfactor : (hours : Int) * 3600 + minutes * 60 = 60 * (hours * 60 + minutes) := by omega
    rw [hfactor, Int.mul_left_comm]
    exact Int.mul_emod_right 60 _
  have hsigned (sign : Int) {cs : List Char} (h : ((numberOf? 2 cs).bind fun hours =>
      (numberOf? 2 (hours.2.dropWhile fun c => c = ':' || Text.isBlank c)).bind fun minutes =>
        if minutes.1 < 60 && hours.1 < 24 then
          some (sign * (hours.1 * 3600 + minutes.1 * 60), minutes.2)
        else none) = some (n, rest)) : n % 60 = 0 := by
    simp only [Option.bind_eq_some_iff] at h
    obtain ⟨hours, _, minutes, _, h⟩ := h
    split at h
    · cases h
      exact hwhole sign hours.1 minutes.1
    · cases h
  unfold lenientOffset? at h
  split at h
  · cases h
    rfl
  · cases h
    rfl
  · simp only [Option.bind_eq_bind, Option.bind_some, Option.bind_none] at h
    split at h
    · cases h
      rfl
    split at h
    · exact hsigned 1 h
    split at h
    · exact hsigned (-1) h
    · cases h
  · cases h

/-- a local time is that of an instant that the calendar has, unless its day is too far away -/
theorem sound_ofLocal {l : Local} (hnanos : l.nanos < 1000000000) (hoffset : l.offset % 60 = 0)
    (h : (ofLocal l).inRange = true) : (ofLocal l).Sound := by
  refine ⟨h, ?_, ?_⟩
  · unfold ofLocal
    dsimp only
    split <;> omega
  · unfold ofLocal
    dsimp only
    split <;> omega

theorem sound_of_ofCondition? {s : String} {t : Instant} (h : ofCondition? s = some t) :
    t.Sound := by
  unfold ofCondition? at h
  obtain ⟨_, _, h⟩ := Option.bind_eq_some_iff.mp h -- the year
  obtain ⟨_, _, h⟩ := Option.bind_eq_some_iff.mp h
  obtain ⟨_, _, h⟩ := Option.bind_eq_some_iff.mp h -- the month
  obtain ⟨_, _, h⟩ := Option.bind_eq_some_iff.mp h
  obtain ⟨⟨_, _⟩, _, h⟩ := Option.bind_eq_some_iff.mp h -- the day
  dsimp only at h
  split at h
  · split at h
    · obtain ⟨_, _, h⟩ := Option.bind_eq_some_iff.mp h
      obtain ⟨_, _, h⟩ := Option.bind_eq_some_iff.mp h -- the hour
      obtain ⟨_, _, h⟩ := Option.bind_eq_some_iff.mp h
      obtain ⟨_, _, h⟩ := Option.bind_eq_some_iff.mp h -- the minute
      obtain ⟨_, _, h⟩ := Option.bind_eq_some_iff.mp h
      obtain ⟨_, _, h⟩ := Option.bind_eq_some_iff.mp h -- the second
      obtain ⟨⟨nanos, _⟩, hnanos, h⟩ := Option.bind_eq_some_iff.mp h
      obtain ⟨⟨offset, _⟩, hoffset, h⟩ := Option.bind_eq_some_iff.mp h
      dsimp only at h
      split at h
      · split at h
        · rename_i hrange
          cases h
          exact sound_ofLocal (lt_of_lenientFraction? hnanos) (emod_of_lenientOffset? hoffset)
            hrange
        · cases h
      · cases h
    · cases h
  · cases h

end ReleaseUpgrade.Instant
