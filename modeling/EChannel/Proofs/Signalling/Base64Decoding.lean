import EChannel.Proofs.Signalling.AuthToken

/-!
# `EChannel.Proofs.Signalling.Base64Decoding`: what the decoder makes of the encoder's text

The loop reads four characters a round, however many are left. `Shows` is what a state of it
has: the offset, the counter, the value of the group, and the bytes that are written. There is
a lemma for each operation, a step lemma for a round on a group or on a line break, and
`decodeLoop_encodeFrom` follows the recursion of the encoder.

A text with padding is read back. The URL-safe text has none, so behind an incomplete group the
decoder takes the NUL for a character and writes at least one byte more than the encoder was
given.
-/

set_option autoImplicit false

namespace EChannel.Signalling

namespace Base64url

variable {mem : SrcMem} {text : QByteArray} {urlSafe : Bool}

/-! ### The text and the table -/

/-- The characters behind a prefix of the text, and the NUL behind them. -/
theorem SrcMem.char_append (mem : SrcMem) (pre s : QByteArray) {j : Nat} (hj : j ≤ s.length) :
    mem.char (pre ++ s) (pre.length + j) = s.getD j 0 := by
  rcases Nat.lt_or_eq_of_le hj with hlt | rfl
  · have hin : pre.length + j < (pre ++ s).length := by
      rw [List.length_append]
      omega
    rw [SrcMem.char, if_pos hin, List.getD_eq_getElem?_getD, List.getD_eq_getElem?_getD,
      List.getElem?_append_right (Nat.le_add_right _ _), Nat.add_sub_cancel_left]
  · rw [SrcMem.char, ← List.length_append, if_neg (Nat.lt_irrefl _), if_pos rfl,
      List.getD_eq_getElem?_getD, List.getElem?_eq_none (Nat.le_refl _), Option.getD_none]

/-- The characters at some place of the text, and the one behind them. -/
theorem SrcMem.char_of_eq (mem : SrcMem) {text pre cs rest : QByteArray}
    (htext : text = pre ++ (cs ++ rest)) {j : Nat} (hj : j ≤ cs.length) :
    mem.char text (pre.length + j) = (cs ++ rest).getD j 0 := by
  rw [htext]
  refine mem.char_append pre _ (Nat.le_trans hj ?_)
  rw [List.length_append]
  exact Nat.le_add_right _ _

/-- The decoder's table gives the digit of each character of both alphabets. -/
theorem table_rfcChar (mem : SrcMem) (urlSafe : Bool) (d : Fin 64) :
    mem.table (replace (rfcChar urlSafe d)) = d.val := by
  have hall : ∀ d : Fin 64, (replace (rfcChar urlSafe d)).toNat < gDecodeTable.length ∧
      (gDecodeTable.getD (replace (rfcChar urlSafe d)).toNat 0).toNat = d.val := by
    cases urlSafe <;> decide +kernel
  rw [SrcMem.table, if_pos (hall d).1, (hall d).2]

/-- The bytes of a value, as the masks and shifts take them. -/
theorem mask_shift (v : Nat) :
    (v &&& 0x00FF0000) >>> 16 = v / 65536 % 256 ∧ (v &&& 0x0000FF00) >>> 8 = v / 256 % 256 ∧
      v &&& 0x000000FF = v % 256 := by
  have hmask : ∀ w : Nat, w &&& 0xFF = w % 256 := fun w => Nat.and_two_pow_sub_one_eq_mod w 8
  refine ⟨?_, ?_, hmask v⟩
  · rw [Nat.shiftRight_and_distrib, Nat.shiftRight_eq_div_pow]
    exact hmask _
  · rw [Nat.shiftRight_and_distrib, Nat.shiftRight_eq_div_pow]
    exact hmask _

/-! ### The operations of a round -/

/-- What a state of the decoder has. -/
structure Decoder.Shows (st : Decoder) (src i nValue : Nat) (out : QByteArray) : Prop where
  src_eq : st.src = src
  i_eq : st.i = i
  nValue_eq : st.nValue = nValue
  bufTmp_eq : st.bufTmp = out
  outByte_eq : st.outByte = out.length

namespace Decoder.Shows

variable {st : Decoder} {p i n : Nat} {out : QByteArray}

/-- A character is taken. -/
theorem take (mem : SrcMem) (text : QByteArray) (h : st.Shows p i n out) (shift : Nat) :
    (st.take mem text shift).Shows (p + 1) i
      (n + (mem.table (replace (mem.char text p)) <<< shift)) out := by
  obtain ⟨rfl, rfl, rfl, rfl, hout⟩ := h
  exact ⟨rfl, rfl, rfl, rfl, hout⟩

/-- A character of the alphabet is taken. -/
theorem take_digit (h : st.Shows p i n out) {d : Fin 64} (hd : mem.char text p = rfcChar urlSafe d)
    (shift : Nat) : (st.take mem text shift).Shows (p + 1) i (n + d.val * 2 ^ shift) out := by
  have htake := h.take mem text shift
  rwa [hd, table_rfcChar, Nat.shiftLeft_eq] at htake

/-- A byte is put. -/
theorem put (h : st.Shows p i n out) (bits : Nat) {b : UInt8} (hb : UInt8.ofNat bits = b) :
    (st.put bits).Shows p i n (out ++ [b]) := by
  obtain ⟨rfl, rfl, rfl, rfl, hout⟩ := h
  refine ⟨rfl, rfl, rfl, ?_, ?_⟩
  · rw [← hb]
    rfl
  · show st.outByte + 1 = _
    rw [hout, List.length_append]
    rfl

/-- A character is looked at. -/
theorem peek (mem : SrcMem) (text : QByteArray) (h : st.Shows p i n out) :
    (st.peek mem text).1 = mem.char text p ∧ (st.peek mem text).2.Shows p i n out := by
  obtain ⟨rfl, rfl, rfl, rfl, hout⟩ := h
  exact ⟨rfl, rfl, rfl, rfl, rfl, hout⟩

/-! ### A round -/

/-- The bytes of a group, from its first two, three and four digits. -/
theorem group_bytes (a b c : UInt8) :
    UInt8.ofNat (((0 + (Base64.digit (Base64.quantum a b c) 3).val * 2 ^ 18 +
        (Base64.digit (Base64.quantum a b c) 2).val * 2 ^ 12) &&& 0x00FF0000) >>> 16) = a ∧
      UInt8.ofNat (((0 + (Base64.digit (Base64.quantum a b c) 3).val * 2 ^ 18 +
        (Base64.digit (Base64.quantum a b c) 2).val * 2 ^ 12 +
        (Base64.digit (Base64.quantum a b c) 1).val * 2 ^ 6) &&& 0x0000FF00) >>> 8) = b ∧
      UInt8.ofNat ((0 + (Base64.digit (Base64.quantum a b c) 3).val * 2 ^ 18 +
        (Base64.digit (Base64.quantum a b c) 2).val * 2 ^ 12 +
        (Base64.digit (Base64.quantum a b c) 1).val * 2 ^ 6 +
        (Base64.digit (Base64.quantum a b c) 0).val * 2 ^ 0) &&& 0x000000FF) = c := by
  obtain ⟨hd₃, hd₂, hd₁, hd₀⟩ := Base64.digit_quantum a b c
  have ha := a.toNat_lt
  have hb := b.toNat_lt
  have hc := c.toNat_lt
  have hbyte : ∀ {v : Nat} {x : UInt8}, v = x.toNat → UInt8.ofNat v = x := by
    intro v x hv
    rw [hv, UInt8.ofNat_toNat]
  rw [hd₃, hd₂, hd₁, hd₀]
  refine ⟨hbyte ?_, hbyte ?_, hbyte ?_⟩
  · rw [(mask_shift _).1]
    omega
  · rw [(mask_shift _).2.1]
    omega
  · rw [(mask_shift _).2.2]
    omega

/-- Padding in the fourth place ends the group. -/
theorem fourth_pad (h : st.Shows p i n out) (hc : mem.char text p = 61) :
    (st.fourth mem text).Shows p i n out := by
  obtain ⟨hpeek, hst⟩ := h.peek mem text
  rw [Decoder.fourth, if_pos (hpeek.trans hc)]
  exact hst

/-- Without a padding the fourth character gives a byte, whatever it is. -/
theorem fourth_put (h : st.Shows p i n out) (hc : mem.char text p ≠ 61) :
    ∃ v, v = n + (mem.table (replace (mem.char text p)) <<< 0) ∧
      (st.fourth mem text).Shows (p + 1) i v (out ++ [UInt8.ofNat (v &&& 0x000000FF)]) := by
  obtain ⟨hpeek, hst⟩ := h.peek mem text
  have htake := hst.take mem text 0
  refine ⟨_, rfl, ?_⟩
  rw [Decoder.fourth, if_neg (fun he => hc (hpeek.symm.trans he))]
  refine htake.put _ ?_
  rw [htake.nValue_eq]

/-- Padding in the third place ends the group. -/
theorem third_pad (h : st.Shows p i n out) (hc : mem.char text p = 61) :
    (st.third mem text).Shows p i n out := by
  obtain ⟨hpeek, hst⟩ := h.peek mem text
  rw [Decoder.third, if_pos (hpeek.trans hc)]
  exact hst

/-- Without a padding the third character gives a byte, and the fourth is read. -/
theorem third_put (h : st.Shows p i n out) (hc : mem.char text p ≠ 61) :
    ∃ (v : Nat) (st' : Decoder), v = n + (mem.table (replace (mem.char text p)) <<< 6) ∧
      st'.Shows (p + 1) i v (out ++ [UInt8.ofNat ((v &&& 0x0000FF00) >>> 8)]) ∧
      st.third mem text = st'.fourth mem text := by
  obtain ⟨hpeek, hst⟩ := h.peek mem text
  have htake := hst.take mem text 6
  obtain ⟨st₁, hst₁⟩ : ∃ s, s = (st.peek mem text).2.take mem text 6 := ⟨_, rfl⟩
  rw [← hst₁] at htake
  refine ⟨_, st₁.put ((st₁.nValue &&& 0x0000FF00) >>> 8), rfl, htake.put _ ?_, ?_⟩
  · rw [htake.nValue_eq]
  · rw [hst₁, Decoder.third, if_neg (fun he => hc (hpeek.symm.trans he))]

/-- A round on two characters of the alphabet gives the first byte of their group, and goes on
with the third character. -/
theorem round_two {a b c : UInt8} (h : st.Shows p i n out)
    (h₀ : mem.char text p = rfcChar urlSafe (Base64.digit (Base64.quantum a b c) 3))
    (h₁ : mem.char text (p + 1) = rfcChar urlSafe (Base64.digit (Base64.quantum a b c) 2)) :
    ∃ st' : Decoder, st'.Shows (p + 2) i
        (0 + (Base64.digit (Base64.quantum a b c) 3).val * 2 ^ 18 +
          (Base64.digit (Base64.quantum a b c) 2).val * 2 ^ 12) (out ++ [a]) ∧
      st.round mem text =
        { st'.third mem text with i := (st'.third mem text).i + 4 } := by
  obtain ⟨hpeek, hst⟩ := h.peek mem text
  have hne := rfcChar_ne urlSafe (Base64.digit (Base64.quantum a b c) 3)
  have hzero : Decoder.Shows { (st.peek mem text).2 with nValue := 0 } p i 0 out :=
    ⟨hst.src_eq, hst.i_eq, rfl, hst.bufTmp_eq, hst.outByte_eq⟩
  -- The two characters are read without a test, with `nValue` from 0.
  have htwo := (hzero.take_digit h₀ 18).take_digit h₁ 12
  obtain ⟨st₂, hst₂⟩ : ∃ s : Decoder, s = (Decoder.take mem text
    (Decoder.take mem text { (st.peek mem text).2 with nValue := 0 } 18) 12) := ⟨_, rfl⟩
  rw [← hst₂] at htwo
  refine ⟨st₂.put ((st₂.nValue &&& 0x00FF0000) >>> 16), htwo.put _ ?_, ?_⟩
  · rw [htwo.nValue_eq]
    exact (group_bytes a b c).1
  · rw [Decoder.round, if_pos ⟨by rw [hpeek, h₀]; exact hne.2.1, by rw [hpeek, h₀]; exact hne.1⟩,
      Decoder.group, hst₂]

/-- The counter goes on by four. -/
theorem count (h : st.Shows p i n out) :
    Decoder.Shows { st with i := st.i + 4 } p (i + 4) n out := by
  obtain ⟨rfl, rfl, rfl, rfl, hout⟩ := h
  exact ⟨rfl, rfl, rfl, rfl, hout⟩

/-- A round on three characters of the alphabet gives two bytes, and goes on with the fourth
character. -/
theorem round_three {a b c : UInt8} (h : st.Shows p i n out)
    (h₀ : mem.char text p = rfcChar urlSafe (Base64.digit (Base64.quantum a b c) 3))
    (h₁ : mem.char text (p + 1) = rfcChar urlSafe (Base64.digit (Base64.quantum a b c) 2))
    (h₂ : mem.char text (p + 2) = rfcChar urlSafe (Base64.digit (Base64.quantum a b c) 1)) :
    ∃ st' : Decoder, st'.Shows (p + 3) i
        (0 + (Base64.digit (Base64.quantum a b c) 3).val * 2 ^ 18 +
          (Base64.digit (Base64.quantum a b c) 2).val * 2 ^ 12 +
          (Base64.digit (Base64.quantum a b c) 1).val * 2 ^ 6) (out ++ [a, b]) ∧
      st.round mem text =
        { st'.fourth mem text with i := (st'.fourth mem text).i + 4 } := by
  obtain ⟨st₁, hst₁, hround⟩ := h.round_two h₀ h₁
  have hne := (rfcChar_ne urlSafe (Base64.digit (Base64.quantum a b c) 1)).2.2
  obtain ⟨v, st₂, hv, hst₂, hthird⟩ := hst₁.third_put (h₂ ▸ hne)
  rw [h₂, table_rfcChar, Nat.shiftLeft_eq] at hv
  rw [hv, (group_bytes a b c).2.1, List.append_assoc] at hst₂
  rw [hthird] at hround
  exact ⟨st₂, hst₂, hround⟩

/-- A round on a complete group. -/
theorem round_group {a b c : UInt8} (h : st.Shows p i n out)
    (h₀ : mem.char text p = rfcChar urlSafe (Base64.digit (Base64.quantum a b c) 3))
    (h₁ : mem.char text (p + 1) = rfcChar urlSafe (Base64.digit (Base64.quantum a b c) 2))
    (h₂ : mem.char text (p + 2) = rfcChar urlSafe (Base64.digit (Base64.quantum a b c) 1))
    (h₃ : mem.char text (p + 3) = rfcChar urlSafe (Base64.digit (Base64.quantum a b c) 0)) :
    ∃ n', (st.round mem text).Shows (p + 4) (i + 4) n' (out ++ [a, b, c]) := by
  obtain ⟨st₁, hst₁, hround⟩ := h.round_three h₀ h₁ h₂
  have hne := (rfcChar_ne urlSafe (Base64.digit (Base64.quantum a b c) 0)).2.2
  obtain ⟨v, hv, hst₂⟩ := hst₁.fourth_put (h₃ ▸ hne)
  rw [h₃, table_rfcChar, Nat.shiftLeft_eq] at hv
  rw [hv, (group_bytes a b c).2.2, List.append_assoc] at hst₂
  rw [hround]
  exact ⟨_, hst₂.count⟩

/-- A round on the two bytes of an incomplete group: they are written, and a third one if the
fourth character is no padding. -/
theorem round_last_two {a b : UInt8} (h : st.Shows p i n out)
    (h₀ : mem.char text p = rfcChar urlSafe (Base64.digit (Base64.quantum a b 0) 3))
    (h₁ : mem.char text (p + 1) = rfcChar urlSafe (Base64.digit (Base64.quantum a b 0) 2))
    (h₂ : mem.char text (p + 2) = rfcChar urlSafe (Base64.digit (Base64.quantum a b 0) 1)) :
    ∃ m n' surplus, (st.round mem text).Shows m (i + 4) n' (out ++ [a, b] ++ surplus) ∧
      (surplus = [] ↔ mem.char text (p + 3) = 61) := by
  obtain ⟨st₁, hst₁, hround⟩ := h.round_three h₀ h₁ h₂
  rw [hround]
  by_cases hpad : mem.char text (p + 3) = 61
  · have hfin := (hst₁.fourth_pad hpad).count
    rw [← List.append_nil (out ++ [a, b])] at hfin
    exact ⟨_, _, _, hfin, iff_of_true rfl hpad⟩
  · -- Whatever the character is, a byte is written for it.
    obtain ⟨v, -, hst₂⟩ := hst₁.fourth_put hpad
    exact ⟨_, _, _, hst₂.count, iff_of_false (List.cons_ne_nil _ _) hpad⟩

/-- A round on the byte of an incomplete group: it is written, and one or two others if the
third character is no padding. -/
theorem round_last_one {a : UInt8} (h : st.Shows p i n out)
    (h₀ : mem.char text p = rfcChar urlSafe (Base64.digit (Base64.quantum a 0 0) 3))
    (h₁ : mem.char text (p + 1) = rfcChar urlSafe (Base64.digit (Base64.quantum a 0 0) 2)) :
    ∃ m n' surplus, (st.round mem text).Shows m (i + 4) n' (out ++ [a] ++ surplus) ∧
      (surplus = [] ↔ mem.char text (p + 2) = 61) := by
  obtain ⟨st₁, hst₁, hround⟩ := h.round_two h₀ h₁
  rw [hround]
  by_cases hpad : mem.char text (p + 2) = 61
  · have hfin := (hst₁.third_pad hpad).count
    rw [← List.append_nil (out ++ [a])] at hfin
    exact ⟨_, _, _, hfin, iff_of_true rfl hpad⟩
  · obtain ⟨v, st₂, -, hst₂, hthird⟩ := hst₁.third_put hpad
    rw [hthird]
    by_cases hpad' : mem.char text (p + 2 + 1) = 61
    · exact ⟨_, _, _, (hst₂.fourth_pad hpad').count, iff_of_false (List.cons_ne_nil _ _) hpad⟩
    · obtain ⟨w, -, hst₃⟩ := hst₂.fourth_put hpad'
      rw [List.append_assoc (out ++ [a])] at hst₃
      exact ⟨_, _, _, hst₃.count, iff_of_false (List.cons_ne_nil _ _) hpad⟩

/-- A round on a character of a line break. -/
theorem round_break (h : st.Shows p i n out)
    (hc : mem.char text p = 10 ∨ mem.char text p = 13) :
    (st.round mem text).Shows (p + 1) (i + 1) n out := by
  obtain ⟨hpeek, hst⟩ := h.peek mem text
  have hcond : ¬ ((st.peek mem text).1 ≠ 13 ∧ (st.peek mem text).1 ≠ 10) := by
    rintro ⟨h13, h10⟩
    rw [hpeek] at h13 h10
    exact hc.elim h10 h13
  rw [Decoder.round, if_neg hcond]
  obtain ⟨hsrc, hi, hn, hbuf, hout⟩ := hst
  refine ⟨?_, ?_, hn, hbuf, hout⟩
  · show (st.peek mem text).2.src + 1 = p + 1
    rw [hsrc]
  · show (st.peek mem text).2.i + 1 = i + 1
    rw [hi]

end Decoder.Shows

/-! ### The loop -/

section
variable {inLen fuel : Nat} {st : Decoder}

/-- A round of the loop. -/
theorem decodeLoop_step (h : st.i < inLen) :
    decodeLoop mem text inLen (fuel + 1) st = decodeLoop mem text inLen fuel (st.round mem text) :=
  if_pos h

/-- The loop stops at the end of the text. -/
theorem decodeLoop_stop (h : inLen ≤ st.i) : decodeLoop mem text inLen fuel st = st := by
  cases fuel with
  | zero => rfl
  | succ fuel => exact if_neg (Nat.not_lt.mpr h)

end

/-- How a run of the loop ends that has a text left for `x`: `x` is written, and behind it a
surplus, which is empty unless there is an incomplete group without padding. -/
def Decoder.Ends (st : Decoder) (urlSafe : Bool) (out x : QByteArray) : Prop :=
  ∃ surplus : QByteArray, st.bufTmp = out ++ x ++ surplus ∧
    st.outByte = (out ++ x ++ surplus).length ∧
    (surplus = [] ↔ urlSafe = false ∨ x.length % 3 = 0)

namespace Decoder.Ends

variable {st : Decoder} {p i n : Nat} {out x : QByteArray}

/-- A decoder that has written all bytes is at its end. -/
theorem of_shows {surplus : QByteArray} (h : st.Shows p i n (out ++ x ++ surplus))
    (hs : surplus = [] ↔ urlSafe = false ∨ x.length % 3 = 0) : st.Ends urlSafe out x :=
  ⟨surplus, h.bufTmp_eq, h.outByte_eq, hs⟩

/-- A complete group more. -/
theorem group {a b c : UInt8} (h : st.Ends urlSafe (out ++ [a, b, c]) x) :
    st.Ends urlSafe out (a :: b :: c :: x) := by
  obtain ⟨surplus, hbuf, hout, hiff⟩ := h
  have happ : out ++ [a, b, c] ++ x ++ surplus = out ++ a :: b :: c :: x ++ surplus := by
    simp only [List.append_assoc, List.cons_append, List.nil_append]
  refine ⟨surplus, by rw [hbuf, happ], by rw [hout, happ], ?_⟩
  have hmod : (a :: b :: c :: x).length % 3 = x.length % 3 := by
    simp only [List.length_cons]
    omega
  rw [hmod]
  exact hiff

end Decoder.Ends

/-- A line break behind a group is skipped. -/
theorem decodeLoop_break (mem : SrcMem) {pre brk rest : QByteArray} {st : Decoder} {n fuel : Nat}
    {out : QByteArray} (htext : text = pre ++ (brk ++ rest)) (hbrk : brk = [10, 13] ∨ brk = [])
    (h : st.Shows pre.length pre.length n out) (hfuel : (brk ++ rest).length ≤ fuel) :
    ∃ st' fuel', decodeLoop mem text text.length fuel st =
        decodeLoop mem text text.length fuel' st' ∧
      st'.Shows (pre ++ brk).length (pre ++ brk).length n out ∧ rest.length ≤ fuel' := by
  rcases hbrk with rfl | rfl
  · have hlen : text.length = pre.length + (rest.length + 2) := by
      rw [htext, List.length_append]
      rfl
    have hfuel' : rest.length + 2 ≤ fuel := hfuel
    -- Each character of the break is a round of its own.
    obtain ⟨fuel, rfl⟩ : ∃ f, fuel = f + 2 := ⟨fuel - 2, by omega⟩
    have h₀ : mem.char text (pre.length + 0) = 10 := by
      rw [htext, mem.char_append pre _ (Nat.zero_le _)]
      rfl
    have h₁ : mem.char text (pre.length + 1) = 13 := by
      rw [htext, mem.char_append pre _ (by simp)]
      rfl
    have hst₁ := h.round_break (Or.inl h₀)
    have hst₂ := hst₁.round_break (Or.inr h₁)
    have hpre : (pre ++ [10, 13]).length = pre.length + 1 + 1 := List.length_append
    refine ⟨(st.round mem text).round mem text, fuel, ?_, ?_, by omega⟩
    · rw [decodeLoop_step (by rw [h.i_eq, hlen]; omega),
        decodeLoop_step (by rw [hst₁.i_eq, hlen]; omega)]
    · rw [hpre]
      exact hst₂
  · rw [List.append_nil]
    exact ⟨st, fuel, rfl, h, hfuel⟩

/-- The last round reads the text to its end. -/
theorem decodeLoop_last {st : Decoder} {p n inLen fuel : Nat} {out : QByteArray}
    (h : st.Shows p p n out) (hr : (st.round mem text).i = p + 4)
    (hlt : p < inLen) (hle : inLen ≤ p + 4) (hfuel : inLen ≤ p + fuel) :
    decodeLoop mem text inLen fuel st = st.round mem text := by
  obtain ⟨fuel, rfl⟩ : ∃ f, fuel = f + 1 := ⟨fuel - 1, by omega⟩
  rw [decodeLoop_step (by rw [h.i_eq]; exact hlt), decodeLoop_stop (by rw [hr]; exact hle)]

/-- The loop on a complete group and a line break behind it, if there is one. -/
theorem decodeLoop_group (mem : SrcMem) {a b c c₀ c₁ c₂ c₃ : UInt8} {pre brk rest : QByteArray}
    {st : Decoder} {n fuel : Nat} {out : QByteArray}
    (htext : text = pre ++ ([c₀, c₁, c₂, c₃] ++ (brk ++ rest)))
    (h₀ : c₀ = rfcChar urlSafe (Base64.digit (Base64.quantum a b c) 3))
    (h₁ : c₁ = rfcChar urlSafe (Base64.digit (Base64.quantum a b c) 2))
    (h₂ : c₂ = rfcChar urlSafe (Base64.digit (Base64.quantum a b c) 1))
    (h₃ : c₃ = rfcChar urlSafe (Base64.digit (Base64.quantum a b c) 0))
    (hbrk : brk = [10, 13] ∨ brk = []) (h : st.Shows pre.length pre.length n out)
    (hfuel : text.length ≤ pre.length + fuel) :
    ∃ pre' st' n' fuel', text = pre' ++ rest ∧
      decodeLoop mem text text.length fuel st = decodeLoop mem text text.length fuel' st' ∧
      st'.Shows pre'.length pre'.length n' (out ++ [a, b, c]) ∧ rest.length ≤ fuel' := by
  have hlen : text.length = pre.length + (4 + (brk ++ rest).length) := by
    rw [htext, List.length_append, List.length_append]
    rfl
  have hchar : ∀ j, j ≤ 4 → mem.char text (pre.length + j) =
      ([c₀, c₁, c₂, c₃] ++ (brk ++ rest)).getD j 0 := fun j hj => mem.char_of_eq htext hj
  obtain ⟨n', hround⟩ := h.round_group ((hchar 0 (by decide)).trans h₀)
    ((hchar 1 (by decide)).trans h₁) ((hchar 2 (by decide)).trans h₂)
    ((hchar 3 (by decide)).trans h₃)
  -- There is text left, so there is fuel for this round.
  obtain ⟨fuel, rfl⟩ : ∃ f, fuel = f + 1 := ⟨fuel - 1, by omega⟩
  rw [decodeLoop_step (by rw [h.i_eq, hlen]; omega)]
  rw [← List.append_assoc] at htext
  have hpre : (pre ++ [c₀, c₁, c₂, c₃]).length = pre.length + 4 := List.length_append
  rw [← hpre] at hround
  have hfuel' : (brk ++ rest).length ≤ fuel := by omega
  obtain ⟨st', fuel', hloop, hst', hrest⟩ := decodeLoop_break mem htext hbrk hround hfuel'
  refine ⟨_, st', n', fuel', ?_, hloop, hst', hrest⟩
  rw [htext, List.append_assoc _ brk]

/-- The loop on the characters of the last two bytes. -/
theorem decodeLoop_two {a b c₀ c₁ c₂ : UInt8} {pre : QByteArray} {st : Decoder} {n fuel : Nat}
    {out : QByteArray}
    (htext : text = pre ++ ([c₀, c₁, c₂] ++ if urlSafe then [] else [61]))
    (h₀ : c₀ = rfcChar urlSafe (Base64.digit (Base64.quantum a b 0) 3))
    (h₁ : c₁ = rfcChar urlSafe (Base64.digit (Base64.quantum a b 0) 2))
    (h₂ : c₂ = rfcChar urlSafe (Base64.digit (Base64.quantum a b 0) 1))
    (h : st.Shows pre.length pre.length n out) (hfuel : text.length ≤ pre.length + fuel) :
    (decodeLoop mem text text.length fuel st).Ends urlSafe out [a, b] := by
  have hchar : ∀ j, j ≤ 3 → mem.char text (pre.length + j) =
      ([c₀, c₁, c₂] ++ if urlSafe then [] else [61]).getD j 0 := fun j hj =>
    mem.char_of_eq htext hj
  obtain ⟨m, n', surplus, hround, hiff⟩ := h.round_last_two ((hchar 0 (by decide)).trans h₀)
    ((hchar 1 (by decide)).trans h₁) ((hchar 2 (by decide)).trans h₂)
  have hlen : text.length =
      pre.length + (3 + (if urlSafe then [] else [61] : QByteArray).length) := by
    rw [htext, List.length_append, List.length_append]
    rfl
  have hpad : (if urlSafe then [] else [61] : QByteArray).length ≤ 1 := by
    cases urlSafe <;> decide
  rw [decodeLoop_last h hround.i_eq (by omega) (by omega) hfuel]
  refine .of_shows hround (hiff.trans ?_)
  rw [hchar 3 (Nat.le_refl 3)]
  -- The character behind the last one is the padding, or the NUL.
  cases urlSafe with
  | false => exact iff_of_true rfl (Or.inl rfl)
  | true => exact iff_of_false (show (0 : UInt8) ≠ 61 by decide) (by simp)

/-- The loop on the characters of the last byte. -/
theorem decodeLoop_one {a c₀ c₁ : UInt8} {pre : QByteArray} {st : Decoder} {n fuel : Nat}
    {out : QByteArray}
    (htext : text = pre ++ ([c₀, c₁] ++ if urlSafe then [] else [61, 61]))
    (h₀ : c₀ = rfcChar urlSafe (Base64.digit (Base64.quantum a 0 0) 3))
    (h₁ : c₁ = rfcChar urlSafe (Base64.digit (Base64.quantum a 0 0) 2))
    (h : st.Shows pre.length pre.length n out) (hfuel : text.length ≤ pre.length + fuel) :
    (decodeLoop mem text text.length fuel st).Ends urlSafe out [a] := by
  have hchar : ∀ j, j ≤ 2 → mem.char text (pre.length + j) =
      ([c₀, c₁] ++ if urlSafe then [] else [61, 61]).getD j 0 := fun j hj =>
    mem.char_of_eq htext hj
  obtain ⟨m, n', surplus, hround, hiff⟩ := h.round_last_one ((hchar 0 (by decide)).trans h₀)
    ((hchar 1 (by decide)).trans h₁)
  have hlen : text.length =
      pre.length + (2 + (if urlSafe then [] else [61, 61] : QByteArray).length) := by
    rw [htext, List.length_append, List.length_append]
    rfl
  have hpad : (if urlSafe then [] else [61, 61] : QByteArray).length ≤ 2 := by
    cases urlSafe <;> decide
  rw [decodeLoop_last h hround.i_eq (by omega) (by omega) hfuel]
  refine .of_shows hround (hiff.trans ?_)
  rw [hchar 2 (Nat.le_refl 2)]
  -- The padding, or the NUL, which the decoder takes for a character.
  cases urlSafe with
  | false => exact iff_of_true rfl (Or.inl rfl)
  | true => exact iff_of_false (show (0 : UInt8) ≠ 61 by decide) (by simp)

/-- The loop on what the encoder writes from some group on. -/
theorem decodeLoop_encodeFrom (mem : SrcMem) (urlSafe : Bool) (text : QByteArray) :
    ∀ (x : QByteArray) (k : Nat) {pre : QByteArray} {st : Decoder} {n fuel : Nat}
      {out : QByteArray}, text = pre ++ encodeFrom urlSafe (4 * k) x →
      st.Shows pre.length pre.length n out → text.length ≤ pre.length + fuel →
      (decodeLoop mem text text.length fuel st).Ends urlSafe out x
  | a :: b :: c :: x, k, pre, st, n, fuel, out, htext, h, hfuel => by
    obtain ⟨g₀, g₁, g₂, g₃⟩ := group_chars urlSafe a b c
    have hbrk : (if (4 * k + 4) % 76 = 0 then ascii "\n\r" else []) = [10, 13] ∨
        (if (4 * k + 4) % 76 = 0 then ascii "\n\r" else []) = [] := by
      split
      · exact Or.inl rfl
      · exact Or.inr rfl
    rw [encodeFrom, List.append_assoc] at htext
    obtain ⟨pre', st', n', fuel', htext', hloop, hst', hfuel'⟩ :=
      decodeLoop_group mem htext g₀ g₁ g₂ g₃ hbrk h hfuel
    have hlen : text.length ≤ pre'.length + fuel' := by
      rw [htext', List.length_append]
      omega
    rw [hloop]
    exact (decodeLoop_encodeFrom mem urlSafe text x (k + 1) htext' hst' hlen).group
  | [a, b], k, pre, st, n, fuel, out, htext, h, hfuel => by
    obtain ⟨g₀, g₁, g₂, -⟩ := group_chars urlSafe a b 0
    have hzero : (0 : UInt8).toNat >>> 6 = 0 >>> 6 := rfl
    rw [hzero] at g₂
    exact decodeLoop_two htext g₀ g₁ g₂ h hfuel
  | [a], k, pre, st, n, fuel, out, htext, h, hfuel => by
    obtain ⟨g₀, g₁, -, -⟩ := group_chars urlSafe a 0 0
    have hzero : a.toNat <<< 4 ||| (0 : UInt8).toNat >>> 4 = a.toNat <<< 4 := Nat.or_zero _
    rw [hzero] at g₁
    exact decodeLoop_one htext g₀ g₁ h hfuel
  | [], k, pre, st, n, fuel, out, htext, h, hfuel => by
    have hlen : text.length = pre.length := by
      rw [htext]
      exact congrArg List.length (List.append_nil pre)
    rw [decodeLoop_stop (by rw [h.i_eq, hlen])]
    have hnil : out ++ [] ++ [] = out := by rw [List.append_nil, List.append_nil]
    rw [← hnil] at h
    exact .of_shows h (iff_of_true rfl (Or.inr rfl))

/-! ### Termination -/

/-- The fourth character of a group does not count. -/
theorem Decoder.i_fourth (st : Decoder) : (st.fourth mem text).i = st.i := by
  unfold Decoder.fourth
  dsimp only
  split <;> rfl

/-- The third character of a group does not count. -/
theorem Decoder.i_third (st : Decoder) : (st.third mem text).i = st.i := by
  unfold Decoder.third
  dsimp only
  split
  · rfl
  · exact Decoder.i_fourth _

/-- Each round adds to the counter. -/
theorem Decoder.lt_i_round (mem : SrcMem) (text : QByteArray) (st : Decoder) :
    st.i < (st.round mem text).i := by
  unfold Decoder.round
  dsimp only
  split
  · unfold Decoder.group
    dsimp only
    rw [Decoder.i_third]
    exact Nat.lt_add_of_pos_right (by decide)
  · exact Nat.lt_succ_self _

/-- The loop ends by its condition. -/
theorem le_i_decodeLoop {inLen : Nat} : ∀ (fuel : Nat) (st : Decoder), inLen ≤ st.i + fuel →
    inLen ≤ (decodeLoop mem text inLen fuel st).i
  | 0, st, h => h
  | fuel + 1, st, h => by
    by_cases hlt : st.i < inLen
    · rw [decodeLoop_step hlt]
      have hround := st.lt_i_round mem text
      exact le_i_decodeLoop fuel _ (by omega)
    · rw [decodeLoop_stop (Nat.le_of_not_lt hlt)]
      exact Nat.le_of_not_lt hlt

/-! ### The round trip -/

/-- `decoding` ends, and it gives the bytes back if and only if the text is padded or needs no
padding. -/
theorem decoding_encoding (mem : SrcMem) (x : QByteArray) (urlSafe : Bool)
    (hx : x.length ≤ 128) :
    (encoding x urlSafe).length ≤
        (decoding mem (encoding x urlSafe) (encoding x urlSafe).length).i ∧
      ((decoding mem (encoding x urlSafe) (encoding x urlSafe).length).result = some x ∧
          (decoding mem (encoding x urlSafe) (encoding x urlSafe).length).outByte = x.length ↔
        urlSafe = false ∨ x.length % 3 = 0) := by
  have hinit : Decoder.init.Shows 0 0 0 [] := ⟨rfl, rfl, rfl, rfl, rfl⟩
  have htext : encoding x urlSafe = [] ++ encodeFrom urlSafe (4 * 0) x := rfl
  obtain ⟨surplus, hbuf, hout, hiff⟩ := decodeLoop_encodeFrom mem urlSafe (encoding x urlSafe) x 0
    htext hinit (Nat.le_add_left _ _)
  refine ⟨le_i_decodeLoop _ _ (Nat.le_add_left _ _), Iff.trans ?_ hiff⟩
  rw [Decoder.result, decoding, hbuf, hout, List.nil_append]
  constructor
  · -- A surplus shows in the number of bytes.
    rintro ⟨-, hlen⟩
    rw [List.length_append] at hlen
    exact List.length_eq_zero_iff.mp (by omega)
  · rintro rfl
    rw [List.append_nil, if_pos hx]
    exact ⟨rfl, rfl⟩

/-- Two bytes, with padding. -/
theorem decoding_encoding_padded :
    (decoding ⟨fun _ => 0, fun _ => 0⟩ (encoding [97, 98] false)
      (encoding [97, 98] false).length).result = some [97, 98] :=
  ((decoding_encoding ⟨fun _ => 0, fun _ => 0⟩ [97, 98] false (by decide)).2.mpr (Or.inl rfl)).1

/-- A single byte comes back with two others behind it if the text has no padding. -/
theorem decoding_encoding_unpadded :
    ¬ ∀ (mem : SrcMem) (x : QByteArray) (urlSafe : Bool), x.length ≤ 128 →
      (decoding mem (encoding x urlSafe) (encoding x urlSafe).length).result = some x ∧
        (decoding mem (encoding x urlSafe) (encoding x urlSafe).length).outByte = x.length := by
  intro h
  have hbyte := (h ⟨fun _ => 0, fun _ => 0⟩ [97] true (by decide)).2
  have htext : encoding [97] true = [89, 81] := by
    rw [encoding_eq, tailText_one]
    decide +kernel
  have hthree : (decoding ⟨fun _ => 0, fun _ => 0⟩ [89, 81] 2).outByte = 3 := by decide +kernel
  rw [htext] at hbyte
  exact absurd (hthree.symm.trans hbyte) (by decide)

end Base64url

end EChannel.Signalling
