import ClusterWatch.Text.Utf8
import Mathlib.Data.List.Basic

/-!
# Decoding of bytes

`Decodes` says what text bytes stand for without a reader: where a character starts it is read, and where
none does, the longest part that could start one becomes one replacement character, or one byte if there is
no such part. The reader finds this text, which is the only one (`decodes_iff`). An ASCII byte is never
part of another character, so a text may be cut there before or after it is decoded
(`decodeLossy_append_ascii`).
-/

namespace ClusterWatch.Text

/-- The bytes start with a part that is no character and that could not be any longer. -/
structure InvalidPart (part rest : List UInt8) : Prop where
  nonempty : part ≠ []
  no_character (c : Char) : ¬ String.utf8EncodeChar c <+: part ++ rest
  could_start : part.length = 1 ∨ ∃ c, part <+: String.utf8EncodeChar c
  longest {c : Char} {other : List UInt8} : other <+: String.utf8EncodeChar c →
    other <+: part ++ rest → other.length ≤ part.length

/-- The text that bytes stand for. -/
inductive Decodes : List UInt8 → List Char → Prop
  | done : Decodes [] []
  | character (c : Char) {rest : List UInt8} {text : List Char} (h : Decodes rest text) :
      Decodes (String.utf8EncodeChar c ++ rest) (c :: text)
  | invalid {part rest : List UInt8} {text : List Char} (hpart : InvalidPart part rest)
      (h : Decodes rest text) : Decodes (part ++ rest) (replacement :: text)

/-! ## The bytes of a character -/

theorem toNat_charOfNat {n : Nat} (h : n.isValidChar) : (Char.ofNat n).toNat = n := by
  rw [Char.ofNat, dif_pos h]
  rfl

theorem ofNat_eq_of_toNat {n : Nat} {b : UInt8} (h : n = b.toNat) : UInt8.ofNat n = b := by
  rw [h, UInt8.ofNat_toNat]

theorem lead?_two {b : UInt8} {n : Nat} (hb : b.toNat = n + 0xc0) (hn : 2 ≤ n ∧ n ≤ 0x1f) :
    lead? b = some ⟨0x80, 0xbf, 0, n⟩ := by
  rw [lead?, hb, if_pos (by omega), Nat.add_sub_cancel]

theorem lead?_three {b : UInt8} {n : Nat} (hb : b.toNat = n + 0xe0) (hn : n ≤ 0xf) :
    lead? b = some ⟨if n = 0 then 0xa0 else 0x80, if n = 0xd then 0x9f else 0xbf, 1, n⟩ := by
  rw [lead?, hb, if_neg (by omega)]
  by_cases h₀ : n = 0
  · simp [h₀]
  · rw [if_neg (by omega)]
    by_cases h₁ : n = 0xd
    · simp [h₁]
    · rw [if_neg (by omega), if_pos (by omega), if_neg h₀, if_neg h₁, Nat.add_sub_cancel]

theorem lead?_four {b : UInt8} {n : Nat} (hb : b.toNat = n + 0xf0) (hn : n ≤ 4) :
    lead? b = some ⟨if n = 0 then 0x90 else 0x80, if n = 4 then 0x8f else 0xbf, 2, n⟩ := by
  rw [lead?, hb, if_neg (by omega), if_neg (by omega), if_neg (by omega), if_neg (by omega)]
  by_cases h₀ : n = 0
  · simp [h₀]
  · rw [if_neg (by omega)]
    by_cases h₁ : n = 4
    · simp [h₁]
    · rw [if_pos (by omega), if_neg h₀, if_neg h₁, Nat.add_sub_cancel]

/-- A byte that starts a character of several bytes starts one of two, three or four. -/
theorem lead?_cases {b : UInt8} {lead : Lead} (h : lead? b = some lead) :
    (∃ n, b.toNat = n + 0xc0 ∧ (2 ≤ n ∧ n ≤ 0x1f)) ∨ (∃ n, b.toNat = n + 0xe0 ∧ n ≤ 0xf) ∨
      ∃ n, b.toNat = n + 0xf0 ∧ n ≤ 4 := by
  have hrange : 0xc2 ≤ b.toNat ∧ b.toNat ≤ 0xf4 := by
    by_contra hout
    have hnone : lead? b = none := by
      rw [lead?, if_neg (by omega), if_neg (by omega), if_neg (by omega), if_neg (by omega),
        if_neg (by omega), if_neg (by omega), if_neg (by omega)]
    simp [hnone] at h
  by_cases h₂ : b.toNat ≤ 0xdf
  · exact .inl ⟨b.toNat - 0xc0, by omega, by omega⟩
  · by_cases h₃ : b.toNat ≤ 0xef
    · exact .inr (.inl ⟨b.toNat - 0xe0, by omega, by omega⟩)
    · exact .inr (.inr ⟨b.toNat - 0xf0, by omega, by omega⟩)

/-- A byte that goes on a character. -/
def IsContinuation (b : UInt8) : Prop := 0x80 ≤ b ∧ b ≤ 0xbf

theorem isContinuation_iff {b : UInt8} : IsContinuation b ↔ 0x80 ≤ b.toNat ∧ b.toNat ≤ 0xbf := Iff.rfl

/-- The second byte is one that goes on a character, with a narrower range after some first bytes. -/
theorem within_iff {p q : Prop} [Decidable p] [Decidable q] {low high m : UInt8}
    (hlow : 0x80 ≤ low.toNat) (hhigh : high.toNat ≤ 0xbf) :
    ((if p then low else 0x80) ≤ m ∧ m ≤ if q then high else 0xbf) ↔
      (0x80 ≤ m.toNat ∧ m.toNat ≤ 0xbf) ∧ (p → low.toNat ≤ m.toNat) ∧ (q → m.toNat ≤ high.toNat) := by
  rw [UInt8.le_iff_toNat_le, UInt8.le_iff_toNat_le]
  have hstart : (if p then low else 0x80).toNat = if p then low.toNat else 0x80 := by split <;> rfl
  have hend : (if q then high else 0xbf).toNat = if q then high.toNat else 0xbf := by split <;> rfl
  rw [hstart, hend]
  by_cases hp : p
  · by_cases hq : q
    · simp [hp, hq]
      omega
    · simp [hp, hq]
      omega
  · by_cases hq : q
    · simp [hp, hq]
      omega
    · simp [hp, hq]

/-- What may come after the first byte of a character. -/
def Lead.Allows (lead : Lead) (tail : List UInt8) : Prop :=
  ∃ m conts, tail = m :: conts ∧ (lead.low ≤ m ∧ m ≤ lead.high) ∧ conts.length = lead.more ∧
    ∀ d ∈ conts, IsContinuation d

/-- Bytes that are allowed one after the other are a character. -/
theorem exists_char_of_allows {b : UInt8} {lead : Lead} {tail : List UInt8} (hlead : lead? b = some lead)
    (h : lead.Allows tail) : ∃ c, String.utf8EncodeChar c = b :: tail := by
  obtain ⟨m, conts, rfl, hm, hlen, hconts⟩ := h
  rcases lead?_cases hlead with ⟨n, hb, hn⟩ | ⟨n, hb, hn⟩ | ⟨n, hb, hn⟩
  · obtain rfl := Option.some.inj (hlead.symm.trans (lead?_two hb hn))
    obtain rfl := List.eq_nil_of_length_eq_zero hlen
    have hm : 0x80 ≤ m.toNat ∧ m.toNat ≤ 0xbf := hm
    refine ⟨Char.ofNat (n * 64 + (m.toNat - 0x80)), ?_⟩
    have hv := toNat_charOfNat (n := n * 64 + (m.toNat - 0x80)) (.inl (by omega))
    rw [String.utf8EncodeChar, Char.toNat_val, hv, if_neg (by omega), if_pos (by omega),
      ofNat_eq_of_toNat (b := b) (by omega), ofNat_eq_of_toNat (b := m) (by omega)]
  · obtain rfl := Option.some.inj (hlead.symm.trans (lead?_three hb hn))
    obtain ⟨d, rfl⟩ := List.length_eq_one_iff.1 hlen
    have hd := isContinuation_iff.1 (hconts d List.mem_cons_self)
    obtain ⟨hcont, hfirst, hsurrogate⟩ := (within_iff (by decide) (by decide)).1 hm
    have hfirst : n = 0 → 0xa0 ≤ m.toNat := hfirst
    have hsurrogate : n = 0xd → m.toNat ≤ 0x9f := hsurrogate
    refine ⟨Char.ofNat (n * 4096 + (m.toNat - 0x80) * 64 + (d.toNat - 0x80)), ?_⟩
    have hv := toNat_charOfNat (n := n * 4096 + (m.toNat - 0x80) * 64 + (d.toNat - 0x80))
      (by rw [Nat.isValidChar]; omega)
    rw [String.utf8EncodeChar, Char.toNat_val, hv, if_neg (by omega), if_neg (by omega),
      if_pos (by omega), ofNat_eq_of_toNat (b := b) (by omega), ofNat_eq_of_toNat (b := m) (by omega),
      ofNat_eq_of_toNat (b := d) (by omega)]
  · obtain rfl := Option.some.inj (hlead.symm.trans (lead?_four hb hn))
    obtain ⟨d, e, rfl⟩ := List.length_eq_two.1 hlen
    have hd := isContinuation_iff.1 (hconts d List.mem_cons_self)
    have he := isContinuation_iff.1 (hconts e (by simp))
    obtain ⟨hcont, hfirst, hlast⟩ := (within_iff (by decide) (by decide)).1 hm
    have hfirst : n = 0 → 0x90 ≤ m.toNat := hfirst
    have hlast : n = 4 → m.toNat ≤ 0x8f := hlast
    refine ⟨Char.ofNat (n * 262144 + (m.toNat - 0x80) * 4096 + (d.toNat - 0x80) * 64 +
      (e.toNat - 0x80)), ?_⟩
    have hv := toNat_charOfNat (n := n * 262144 + (m.toNat - 0x80) * 4096 + (d.toNat - 0x80) * 64 +
      (e.toNat - 0x80)) (by rw [Nat.isValidChar]; omega)
    rw [String.utf8EncodeChar, Char.toNat_val, hv, if_neg (by omega), if_neg (by omega),
      if_neg (by omega), ofNat_eq_of_toNat (b := b) (by omega), ofNat_eq_of_toNat (b := m) (by omega),
      ofNat_eq_of_toNat (b := d) (by omega), ofNat_eq_of_toNat (b := e) (by omega)]

/-! ## Reading one character -/

theorem encode_ascii {c : Char} (h : c.toNat < 0x80) : String.utf8EncodeChar c = [UInt8.ofNat c.toNat] := by
  rw [String.utf8EncodeChar, Char.toNat_val, if_pos (Nat.le_of_lt_succ h)]

theorem exists_char_of_ascii {b : UInt8} (h : b < 0x80) : ∃ c, String.utf8EncodeChar c = [b] := by
  have hb : b.toNat < 0x80 := UInt8.lt_iff_toNat_lt.1 h
  have hc := toNat_charOfNat (n := b.toNat) (.inl (by omega))
  exact ⟨Char.ofNat b.toNat, by rw [encode_ascii (by omega), hc, UInt8.ofNat_toNat]⟩

theorem lead?_of_ascii {b : UInt8} (h : b < 0x80) : lead? b = none := by
  have hb : b.toNat < 0x80 := UInt8.lt_iff_toNat_lt.1 h
  rw [Option.eq_none_iff_forall_ne_some]
  intro lead hlead
  rcases lead?_cases hlead with ⟨n, hn, -⟩ | ⟨n, hn, -⟩ | ⟨n, hn, -⟩ <;> omega

theorem not_ascii_of_lead? {b : UInt8} {lead : Lead} (h : lead? b = some lead) : ¬ b < 0x80 := by
  intro hb
  rw [lead?_of_ascii hb] at h
  cases h

theorem decodeOne_ascii {b : UInt8} (h : b < 0x80) (bytes : List UInt8) :
    decodeOne b bytes = (some (Char.ofNat b.toNat), bytes) := by
  unfold decodeOne
  rw [if_pos h]

theorem decodeOne_stray {b : UInt8} (h : ¬ b < 0x80) (hlead : lead? b = none) (bytes : List UInt8) :
    decodeOne b bytes = (none, bytes) := by
  unfold decodeOne
  rw [if_neg h, hlead]

theorem decodeOne_lead {b : UInt8} {lead : Lead} (h : lead? b = some lead) (m : UInt8)
    (bytes : List UInt8) :
    decodeOne b (m :: bytes) = if lead.low ≤ m ∧ m ≤ lead.high then
      ((continuations lead.more (addBits lead.bits m) bytes).1.map Char.ofNat,
        (continuations lead.more (addBits lead.bits m) bytes).2)
    else (none, m :: bytes) := by
  unfold decodeOne
  rw [if_neg (not_ascii_of_lead? h), h]

theorem decodeOne_lead_nil {b : UInt8} {lead : Lead} (h : lead? b = some lead) :
    decodeOne b [] = (none, []) := by
  unfold decodeOne
  rw [if_neg (not_ascii_of_lead? h), h]

theorem continuations_append {conts : List UInt8} (h : ∀ d ∈ conts, IsContinuation d) (code : Nat)
    (rest : List UInt8) :
    continuations conts.length code (conts ++ rest) = (some (conts.foldl addBits code), rest) := by
  induction conts generalizing code with
  | nil => rfl
  | cons d conts ih =>
    have hd : 0x80 ≤ d ∧ d ≤ 0xbf := h d List.mem_cons_self
    rw [List.length_cons, List.cons_append, continuations, if_pos hd,
      ih fun e he => h e (List.mem_cons_of_mem _ he)]
    rfl

theorem decodeOne_of_allows {b m : UInt8} {lead : Lead} {conts : List UInt8} (h : lead? b = some lead)
    (hm : lead.low ≤ m ∧ m ≤ lead.high) (hlen : conts.length = lead.more)
    (hconts : ∀ d ∈ conts, IsContinuation d) (rest : List UInt8) :
    decodeOne b (m :: conts ++ rest) =
      (some (Char.ofNat (conts.foldl addBits (addBits lead.bits m))), rest) := by
  rw [List.cons_append, decodeOne_lead h, if_pos hm, ← hlen, continuations_append hconts]
  rfl

theorem toNat_byte {n : Nat} (h : n < 256) : (UInt8.ofNat n).toNat = n := UInt8.toNat_ofNat_of_lt' h

theorem isContinuation_ofNat (n : Nat) : IsContinuation (UInt8.ofNat (n % 64 + 128)) := by
  rw [isContinuation_iff, toNat_byte (by omega)]
  omega

theorem addBits_ofNat (code n : Nat) : addBits code (UInt8.ofNat (n % 64 + 128)) = code * 64 + n % 64 := by
  rw [addBits, toNat_byte (by omega)]
  omega

/-- The bytes of a character are read as this character. -/
theorem decodeOne_encode (c : Char) : ∃ b tail, String.utf8EncodeChar c = b :: tail ∧
    ∀ rest, decodeOne b (tail ++ rest) = (some c, rest) := by
  have hvalid : c.toNat.isValidChar := c.valid
  have hc : Char.ofNat c.toNat = c := Char.ofNat_toNat c
  rw [String.utf8EncodeChar, Char.toNat_val]
  generalize c.toNat = v at hvalid hc
  subst hc
  have hrange : v < 0xd800 ∨ 0xdfff < v ∧ v < 0x110000 := hvalid
  by_cases h₁ : v ≤ 127
  · have hb := toNat_byte (n := v) (by omega)
    have hlt : UInt8.ofNat v < 0x80 := by
      rw [UInt8.lt_iff_toNat_lt, hb]
      exact Nat.lt_succ_of_le h₁
    refine ⟨_, [], if_pos h₁, fun rest => ?_⟩
    rw [decodeOne_ascii hlt, hb, List.nil_append]
  by_cases h₂ : v ≤ 2047
  · have hlead := lead?_two (toNat_byte (n := v / 64 % 32 + 192) (by omega)) (by omega)
    refine ⟨_, [_], by rw [if_neg h₁, if_pos h₂], fun rest => ?_⟩
    have hm : (0x80 : UInt8) ≤ UInt8.ofNat (v % 64 + 128) ∧ UInt8.ofNat (v % 64 + 128) ≤ 0xbf :=
      isContinuation_ofNat v
    have hcode : addBits (v / 64 % 32) (UInt8.ofNat (v % 64 + 128)) = v := by
      rw [addBits_ofNat]
      omega
    have hread := decodeOne_of_allows hlead hm rfl (List.forall_mem_nil IsContinuation) rest
    rwa [List.foldl_nil, hcode] at hread
  by_cases h₃ : v ≤ 65535
  · have hlead := lead?_three (toNat_byte (n := v / 4096 % 16 + 224) (by omega)) (by omega)
    refine ⟨_, [_, _], by rw [if_neg h₁, if_neg h₂, if_pos h₃], fun rest => ?_⟩
    have hm : (if v / 4096 % 16 = 0 then 0xa0 else 0x80) ≤ UInt8.ofNat (v / 64 % 64 + 128) ∧
        UInt8.ofNat (v / 64 % 64 + 128) ≤ if v / 4096 % 16 = 0xd then 0x9f else 0xbf := by
      rw [within_iff (by decide) (by decide), toNat_byte (by omega)]
      show _ ∧ (_ → 0xa0 ≤ _) ∧ (_ → _ ≤ 0x9f)
      omega
    have hcode : addBits (addBits (v / 4096 % 16) (UInt8.ofNat (v / 64 % 64 + 128)))
        (UInt8.ofNat (v % 64 + 128)) = v := by
      rw [addBits_ofNat, addBits_ofNat]
      omega
    have hconts := List.forall_mem_singleton.2 (isContinuation_ofNat v)
    rw [decodeOne_of_allows hlead hm rfl hconts, List.foldl_cons, List.foldl_nil, hcode]
  · have hlead := lead?_four (toNat_byte (n := v / 262144 % 8 + 240) (by omega)) (by omega)
    refine ⟨_, [_, _, _], by rw [if_neg h₁, if_neg h₂, if_neg h₃], fun rest => ?_⟩
    have hm : (if v / 262144 % 8 = 0 then 0x90 else 0x80) ≤ UInt8.ofNat (v / 4096 % 64 + 128) ∧
        UInt8.ofNat (v / 4096 % 64 + 128) ≤ if v / 262144 % 8 = 4 then 0x8f else 0xbf := by
      rw [within_iff (by decide) (by decide), toNat_byte (by omega)]
      show _ ∧ (_ → 0x90 ≤ _) ∧ (_ → _ ≤ 0x8f)
      omega
    have hcode : addBits (addBits (addBits (v / 262144 % 8) (UInt8.ofNat (v / 4096 % 64 + 128)))
        (UInt8.ofNat (v / 64 % 64 + 128))) (UInt8.ofNat (v % 64 + 128)) = v := by
      rw [addBits_ofNat, addBits_ofNat, addBits_ofNat]
      omega
    have hconts := List.forall_mem_cons.2
      ⟨isContinuation_ofNat (v / 64), List.forall_mem_singleton.2 (isContinuation_ofNat v)⟩
    rw [decodeOne_of_allows hlead hm rfl hconts, List.foldl_cons, List.foldl_cons, List.foldl_nil,
      hcode]

/-- Reading continuation bytes stops behind the last one demanded, or where none follows. -/
theorem continuations_cases (n code : Nat) (bytes : List UInt8) : ∃ conts rest, bytes = conts ++ rest ∧
    (∀ d ∈ conts, IsContinuation d) ∧
      (conts.length = n ∨
        conts.length < n ∧ (∀ d, rest.head? = some d → ¬ IsContinuation d) ∧
          continuations n code bytes = (none, rest)) := by
  induction n generalizing code bytes with
  | zero => exact ⟨[], bytes, rfl, by simp, .inl rfl⟩
  | succ n ih =>
    cases bytes with
    | nil => exact ⟨[], [], rfl, by simp, .inr ⟨by simp, by simp, rfl⟩⟩
    | cons d bytes =>
      by_cases hd : IsContinuation d
      · obtain ⟨conts, rest, rfl, hconts, hend⟩ := ih (addBits code d) bytes
        refine ⟨d :: conts, rest, rfl, List.forall_mem_cons.2 ⟨hd, hconts⟩, ?_⟩
        rcases hend with hlen | ⟨hlen, hstop, hnone⟩
        · exact .inl (by rw [List.length_cons, hlen])
        · refine .inr ⟨by rw [List.length_cons]; omega, hstop, ?_⟩
          have hrange : 0x80 ≤ d ∧ d ≤ 0xbf := hd
          rw [continuations, if_pos hrange, hnone]
      · refine ⟨[], d :: bytes, rfl, by simp, .inr ⟨by simp, ?_, ?_⟩⟩
        · rintro e ⟨⟩
          exact hd
        · have hrange : ¬ (0x80 ≤ d ∧ d ≤ 0xbf) := hd
          rw [continuations, if_neg hrange]

/-- The first byte of a character decides what comes after it. -/
theorem encode_cases {c : Char} {b : UInt8} {tail : List UInt8} (h : String.utf8EncodeChar c = b :: tail) :
    (b < 0x80 ∧ tail = []) ∨ ∃ lead, lead? b = some lead ∧ lead.Allows tail := by
  obtain ⟨b', tail', hbytes, hread⟩ := decodeOne_encode c
  obtain ⟨rfl, rfl⟩ := List.cons.inj (h.symm.trans hbytes)
  have hread := hread []
  rw [List.append_nil] at hread
  by_cases hb : b < 0x80
  · rw [decodeOne_ascii hb] at hread
    exact .inl ⟨hb, congrArg Prod.snd hread⟩
  · cases hlead : lead? b with
    | none => simp [decodeOne_stray hb hlead] at hread
    | some lead =>
      refine .inr ⟨lead, rfl, ?_⟩
      cases tail with
      | nil => simp [decodeOne_lead_nil hlead] at hread
      | cons m bytes =>
        rw [decodeOne_lead hlead] at hread
        by_cases hm : lead.low ≤ m ∧ m ≤ lead.high
        · rw [if_pos hm] at hread
          obtain ⟨conts, rest, rfl, hconts, hend⟩ :=
            continuations_cases lead.more (addBits lead.bits m) bytes
          rcases hend with hlen | ⟨-, -, hnone⟩
          · rw [← hlen, continuations_append hconts] at hread
            obtain rfl : rest = [] := congrArg Prod.snd hread
            exact ⟨m, conts, by rw [List.append_nil], hm, hlen, hconts⟩
          · simp [hnone] at hread
        · simp [if_neg hm] at hread

/-! ## Parts that are no character -/

theorem InvalidPart.of_next {part rest : List UInt8} (hne : part ≠ [])
    (hstart : part.length = 1 ∨ ∃ c, part <+: String.utf8EncodeChar c)
    (hchar : ∀ c, ¬ String.utf8EncodeChar c <+: part)
    (hnext : ∀ c d, rest.head? = some d → ¬ part ++ [d] <+: String.utf8EncodeChar c) :
    InvalidPart part rest := by
  have hlongest {c : Char} {other : List UInt8} (hother : other <+: String.utf8EncodeChar c)
      (hbytes : other <+: part ++ rest) : other.length ≤ part.length := by
    by_contra hlen
    obtain ⟨more, rfl⟩ : part <+: other :=
      List.prefix_of_prefix_length_le (List.prefix_append part rest) hbytes (by omega)
    have hmore : more <+: rest := (List.prefix_append_right_inj part).1 hbytes
    cases more with
    | nil => simp at hlen
    | cons d more =>
      obtain ⟨rest', rfl⟩ := hmore
      refine hnext c d rfl (List.IsPrefix.trans ?_ hother)
      exact ⟨more, by simp⟩
  refine ⟨hne, fun c hc => ?_, hstart, hlongest⟩
  exact hchar c (List.prefix_of_prefix_length_le hc (List.prefix_append part rest)
    (hlongest List.prefix_rfl hc))

theorem exists_tail_of_prefix {c : Char} {b : UInt8} {bytes : List UInt8}
    (h : String.utf8EncodeChar c <+: b :: bytes) :
    ∃ tail, String.utf8EncodeChar c = b :: tail ∧ tail <+: bytes := by
  obtain ⟨b', tail, hc, -⟩ := decodeOne_encode c
  rw [hc] at h
  obtain ⟨rfl, htail⟩ := List.cons_prefix_cons.1 h
  exact ⟨tail, hc, htail⟩

theorem invalidPart_stray {b : UInt8} (h : ¬ b < 0x80) (hlead : lead? b = none) (rest : List UInt8) :
    InvalidPart [b] rest := by
  have hfirst (c : Char) (tail : List UInt8) : String.utf8EncodeChar c ≠ b :: tail := by
    intro hc
    rcases encode_cases hc with ⟨hb, -⟩ | ⟨lead, hsome, -⟩
    · exact h hb
    · simp [hlead] at hsome
  refine .of_next (by simp) (.inl rfl) (fun c hc => ?_) fun c d _ hc => ?_
  · obtain ⟨tail, hc, -⟩ := exists_tail_of_prefix hc
    exact hfirst c tail hc
  · obtain ⟨tail, hc⟩ := hc
    exact hfirst c (d :: tail) hc.symm

theorem allows_of_lead {c : Char} {b : UInt8} {lead : Lead} {tail : List UInt8} (hlead : lead? b = some lead)
    (h : String.utf8EncodeChar c = b :: tail) : lead.Allows tail := by
  rcases encode_cases h with ⟨hb, -⟩ | ⟨other, hother, hallows⟩
  · exact absurd hb (not_ascii_of_lead? hlead)
  · rwa [Option.some.inj (hlead.symm.trans hother)]

theorem invalidPart_lead {b : UInt8} {lead : Lead} (hlead : lead? b = some lead) {rest : List UInt8}
    (hstop : ∀ m, rest.head? = some m → ¬ (lead.low ≤ m ∧ m ≤ lead.high)) : InvalidPart [b] rest := by
  refine .of_next (by simp) (.inl rfl) (fun c hc => ?_) fun c d hd hc => ?_
  · obtain ⟨tail, hc, htail⟩ := exists_tail_of_prefix hc
    obtain ⟨m, conts, rfl, -⟩ := allows_of_lead hlead hc
    simp at htail
  · obtain ⟨tail, hc⟩ := hc
    obtain ⟨m, conts, hm, hrange, -⟩ := allows_of_lead hlead hc.symm
    obtain ⟨rfl, -⟩ := List.cons.inj hm
    exact hstop d hd hrange

theorem invalidPart_start {b m : UInt8} {lead : Lead} (hlead : lead? b = some lead)
    (hm : lead.low ≤ m ∧ m ≤ lead.high) {conts rest : List UInt8} (hconts : ∀ d ∈ conts, IsContinuation d)
    (hlen : conts.length < lead.more) (hstop : ∀ d, rest.head? = some d → ¬ IsContinuation d) :
    InvalidPart (b :: m :: conts) rest := by
  refine .of_next (by simp) (.inr ?_) (fun c hc => ?_) fun c d hd hc => ?_
  · -- With enough continuation bytes after it the part is a character.
    have hfull : lead.Allows (m :: (conts ++ List.replicate (lead.more - conts.length) 0x80)) := by
      refine ⟨m, _, rfl, hm, ?_, ?_⟩
      · rw [List.length_append, List.length_replicate]
        omega
      · intro d hd
        rcases List.mem_append.1 hd with hd | hd
        · exact hconts d hd
        · rw [List.eq_of_mem_replicate hd]
          exact isContinuation_iff.2 (by decide)
    obtain ⟨c, hc⟩ := exists_char_of_allows hlead hfull
    exact ⟨c, by rw [hc]; exact ⟨_, rfl⟩⟩
  · obtain ⟨tail, hc, htail⟩ := exists_tail_of_prefix hc
    obtain ⟨m', conts', rfl, -, hlen', -⟩ := allows_of_lead hlead hc
    have hle := htail.length_le
    simp only [List.length_cons] at hle
    omega
  · obtain ⟨tail, hc⟩ := hc
    obtain ⟨m', conts', heq, -, -, hconts'⟩ := allows_of_lead hlead hc.symm
    obtain ⟨-, rfl⟩ := List.cons.inj heq
    exact hstop d hd (hconts' d (by simp))

/-! ## The whole text -/

theorem decodeOne_of_encode {c : Char} {b : UInt8} {tail : List UInt8}
    (h : String.utf8EncodeChar c = b :: tail) (rest : List UInt8) :
    decodeOne b (tail ++ rest) = (some c, rest) := by
  obtain ⟨b', tail', hbytes, hread⟩ := decodeOne_encode c
  obtain ⟨rfl, rfl⟩ := List.cons.inj (h.symm.trans hbytes)
  exact hread rest

/-- A character is read where one starts, and else the longest part that could start one. -/
theorem decodeOne_cases (b : UInt8) (bytes : List UInt8) :
    (∃ c rest, decodeOne b bytes = (some c, rest) ∧ b :: bytes = String.utf8EncodeChar c ++ rest) ∨
      ∃ part rest, decodeOne b bytes = (none, rest) ∧ b :: bytes = part ++ rest ∧
        InvalidPart part rest := by
  by_cases hb : b < 0x80
  · obtain ⟨c, hc⟩ := exists_char_of_ascii hb
    exact .inl ⟨c, bytes, decodeOne_of_encode hc bytes, by rw [hc]; rfl⟩
  cases hlead : lead? b with
  | none => exact .inr ⟨[b], bytes, decodeOne_stray hb hlead bytes, rfl, invalidPart_stray hb hlead bytes⟩
  | some lead =>
    cases bytes with
    | nil => exact .inr ⟨[b], [], decodeOne_lead_nil hlead, rfl, invalidPart_lead hlead (by simp)⟩
    | cons m bytes =>
      by_cases hm : lead.low ≤ m ∧ m ≤ lead.high
      · obtain ⟨conts, rest, rfl, hconts, hend⟩ :=
          continuations_cases lead.more (addBits lead.bits m) bytes
        rcases hend with hlen | ⟨hlen, hstop, hnone⟩
        · obtain ⟨c, hc⟩ := exists_char_of_allows hlead ⟨m, conts, rfl, hm, hlen, hconts⟩
          exact .inl ⟨c, rest, decodeOne_of_encode hc rest, by rw [hc]; rfl⟩
        · refine .inr ⟨b :: m :: conts, rest, ?_, rfl, invalidPart_start hlead hm hconts hlen hstop⟩
          rw [decodeOne_lead hlead, if_pos hm, hnone]
          rfl
      · refine .inr ⟨[b], m :: bytes, ?_, rfl, invalidPart_lead hlead ?_⟩
        · rw [decodeOne_lead hlead, if_neg hm]
        · rintro m' ⟨⟩
          exact hm

theorem decodeLossy_cons (b : UInt8) (bytes : List UInt8) :
    decodeLossy (b :: bytes) =
      (decodeOne b bytes).1.getD replacement :: decodeLossy (decodeOne b bytes).2 := by
  rw [decodeLossy]

theorem decodeLossy_encode_append (c : Char) (rest : List UInt8) :
    decodeLossy (String.utf8EncodeChar c ++ rest) = c :: decodeLossy rest := by
  obtain ⟨b, tail, hbytes, hread⟩ := decodeOne_encode c
  rw [hbytes, List.cons_append, decodeLossy_cons, hread]
  rfl

theorem decodeLossy_encode (text : List Char) : decodeLossy (text.flatMap String.utf8EncodeChar) = text := by
  induction text with
  | nil => rw [List.flatMap_nil, decodeLossy]
  | cons c text ih => rw [List.flatMap_cons, decodeLossy_encode_append, ih]

theorem InvalidPart.eq_of_append_eq {part rest part' rest' : List UInt8} (h : InvalidPart part rest)
    (h' : InvalidPart part' rest') (heq : part ++ rest = part' ++ rest') : rest = rest' := by
  have hle {p r q s : List UInt8} (hp : InvalidPart p r) (hq : InvalidPart q s)
      (hpq : p ++ r = q ++ s) : p.length ≤ q.length := by
    rcases hp.could_start with hone | ⟨c, hc⟩
    · have := List.length_pos_iff.2 hq.nonempty
      omega
    · exact hq.longest hc (hpq ▸ List.prefix_append p r)
  have hlen : part.length = part'.length := by
    have := hle h h' heq
    have := hle h' h heq.symm
    omega
  exact (List.append_inj heq hlen).2

theorem decodeLossy_invalid {part rest : List UInt8} (h : InvalidPart part rest) :
    decodeLossy (part ++ rest) = replacement :: decodeLossy rest := by
  cases hpart : part with
  | nil => exact absurd hpart h.nonempty
  | cons b tail =>
    rw [hpart] at h
    rw [List.cons_append, decodeLossy_cons]
    rcases decodeOne_cases b (tail ++ rest) with ⟨c, rest', hread, hbytes⟩ | ⟨part', rest', hread, hbytes, h'⟩
    · exact absurd ⟨rest', hbytes.symm⟩ (h.no_character c)
    · rw [hread, h.eq_of_append_eq h' hbytes]
      rfl

theorem decodes_decodeLossy (bytes : List UInt8) : Decodes bytes (decodeLossy bytes) := by
  induction bytes using decodeLossy.induct with
  | case1 =>
    rw [decodeLossy]
    exact .done
  | case2 b bytes ih =>
    rw [decodeLossy_cons]
    rcases decodeOne_cases b bytes with ⟨c, rest, hread, hbytes⟩ | ⟨part, rest, hread, hbytes, hpart⟩
    · rw [hread] at ih ⊢
      rw [hbytes]
      exact .character c ih
    · rw [hread] at ih ⊢
      rw [hbytes]
      exact .invalid hpart ih

/-- Bytes stand for the text that is read from them, and for no other. -/
theorem decodes_iff {bytes : List UInt8} {text : List Char} :
    Decodes bytes text ↔ text = decodeLossy bytes := by
  constructor
  · intro h
    induction h with
    | done => rw [decodeLossy]
    | character c h ih => rw [decodeLossy_encode_append, ih]
    | invalid hpart h ih => rw [decodeLossy_invalid hpart, ih]
  · rintro rfl
    exact decodes_decodeLossy bytes

/-! ## ASCII bytes -/

theorem continuations_append_ascii {a : UInt8} (ha : a < 0x80) (n code : Nat) (bytes rest : List UInt8) :
    continuations n code (bytes ++ a :: rest) =
      ((continuations n code bytes).1, (continuations n code bytes).2 ++ a :: rest) := by
  have hstop : ¬ (0x80 ≤ a ∧ a ≤ 0xbf) := fun h => absurd ha (UInt8.not_lt.2 h.1)
  induction n generalizing code bytes with
  | zero => rfl
  | succ n ih =>
    cases bytes with
    | nil => rw [List.nil_append, continuations, continuations, if_neg hstop, List.nil_append]
    | cons d bytes =>
      rw [List.cons_append, continuations, continuations]
      split
      case isTrue => exact ih _ _
      case isFalse => rfl

theorem low_of_lead? {b : UInt8} {lead : Lead} (h : lead? b = some lead) : 0x80 ≤ lead.low := by
  rcases lead?_cases h with ⟨n, hb, hn⟩ | ⟨n, hb, hn⟩ | ⟨n, hb, hn⟩
  · obtain rfl := Option.some.inj (h.symm.trans (lead?_two hb hn))
    exact UInt8.le_refl 0x80
  · obtain rfl := Option.some.inj (h.symm.trans (lead?_three hb hn))
    dsimp only
    split <;> decide
  · obtain rfl := Option.some.inj (h.symm.trans (lead?_four hb hn))
    dsimp only
    split <;> decide

/-- An ASCII byte belongs to no other character. -/
theorem decodeOne_append_ascii {a : UInt8} (ha : a < 0x80) (b : UInt8) (bytes rest : List UInt8) :
    decodeOne b (bytes ++ a :: rest) = ((decodeOne b bytes).1, (decodeOne b bytes).2 ++ a :: rest) := by
  by_cases hb : b < 0x80
  · rw [decodeOne_ascii hb, decodeOne_ascii hb]
  cases hlead : lead? b with
  | none => rw [decodeOne_stray hb hlead, decodeOne_stray hb hlead]
  | some lead =>
    cases bytes with
    | nil =>
      have hlow := low_of_lead? hlead
      have hstop : ¬ (lead.low ≤ a ∧ a ≤ lead.high) := fun h =>
        absurd ha (UInt8.not_lt.2 (UInt8.le_trans hlow h.1))
      rw [List.nil_append, decodeOne_lead hlead, if_neg hstop, decodeOne_lead_nil hlead, List.nil_append]
    | cons m bytes =>
      rw [List.cons_append, decodeOne_lead hlead, decodeOne_lead hlead]
      split
      case isTrue => rw [continuations_append_ascii ha]
      case isFalse => rfl

/-- Bytes before an ASCII byte are decoded for themselves, and so are the bytes after it. -/
theorem decodeLossy_append_ascii {c : Char} (hc : c.toNat < 0x80) (bytes rest : List UInt8) :
    decodeLossy (bytes ++ UInt8.ofNat c.toNat :: rest) = decodeLossy bytes ++ c :: decodeLossy rest := by
  have ha : UInt8.ofNat c.toNat < 0x80 := by
    rw [UInt8.lt_iff_toNat_lt, toNat_byte (by omega)]
    exact hc
  induction bytes using decodeLossy.induct with
  | case1 =>
    have hread := decodeLossy_encode_append c rest
    rw [encode_ascii hc] at hread
    rw [decodeLossy]
    exact hread
  | case2 b bytes ih =>
    rw [List.cons_append, decodeLossy_cons, decodeOne_append_ascii ha, ih, decodeLossy_cons b bytes,
      List.cons_append]

theorem mem_of_mem_decodeLossy {c : Char} (hc : c.toNat < 0x80) {bytes : List UInt8}
    (h : c ∈ decodeLossy bytes) : UInt8.ofNat c.toNat ∈ bytes := by
  have hdecodes := decodes_decodeLossy bytes
  generalize decodeLossy bytes = text at h hdecodes
  induction hdecodes with
  | done => exact absurd h List.not_mem_nil
  | character c' hrest ih =>
    rcases List.mem_cons.1 h with rfl | h
    · rw [encode_ascii hc]
      exact List.mem_cons_self
    · exact List.mem_append_right _ (ih h)
  | invalid hpart hrest ih =>
    rcases List.mem_cons.1 h with rfl | h
    · exact absurd hc (by decide)
    · exact List.mem_append_right _ (ih h)

theorem getLast?_of_getLast?_decodeLossy {c : Char} (hc : c.toNat < 0x80) {bytes : List UInt8}
    (h : (decodeLossy bytes).getLast? = some c) : bytes.getLast? = some (UInt8.ofNat c.toNat) := by
  have hdecodes := decodes_decodeLossy bytes
  generalize decodeLossy bytes = text at h hdecodes
  have hlast {start rest : List UInt8} (hrest : rest.getLast? = some (UInt8.ofNat c.toNat)) :
      (start ++ rest).getLast? = some (UInt8.ofNat c.toNat) := by
    rw [List.getLast?_append, hrest]
    rfl
  induction hdecodes with
  | done => cases h
  | @character c' rest text hrest ih =>
    cases text with
    | nil =>
      obtain rfl : c' = c := by simpa using h
      cases hrest with
      | done => rw [encode_ascii hc, List.append_nil]; rfl
    | cons d text =>
      rw [List.getLast?_cons_cons] at h
      exact hlast (ih h)
  | @invalid part rest text hpart hrest ih =>
    cases text with
    | nil =>
      obtain rfl : replacement = c := by simpa using h
      exact absurd hc (by decide)
    | cons d text =>
      rw [List.getLast?_cons_cons] at h
      exact hlast (ih h)

end ClusterWatch.Text
