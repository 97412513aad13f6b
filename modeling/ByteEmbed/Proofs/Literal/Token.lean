import Mathlib.Data.List.Chain
import ByteEmbed.Proofs.Literal.Piece
import ByteEmbed.Proofs.Literal.Reading

/-!
# ByteEmbed.Proofs.Literal.Token — spellings and markers, written one behind the other.

A literal is written from *tokens*: the spelling of a byte, or a marker.  Every list of tokens has a
text, also one in which a token swallows the next.  If none does, the text is read as the bytes that
were spelled (`reads_tokens`).  If some does, the text may still be read, but as fewer bytes
(`length_of_bytesFrom`): what an escape takes beyond its own spelling is always whole tokens, each a
digit that stood for a byte of its own, and nothing gives the lost byte back.
-/

namespace ByteEmbed.Literal

open Body (Reads)
open Spelling (Stops)

/-! ## One spelling -/

theorem reads_short {c : Char} {byte : UInt8} (h : (c, byte) ∈ Spelling.shortForms)
    {rest : List Char} {bytes : List UInt8} (hrest : Reads rest bytes) :
    Reads ('\\' :: c :: rest) (byte :: bytes) :=
  Reads.cons (fun offset => Body.item_short offset (Body.shortEscape?_eq_some_iff.mpr h) rest) hrest

theorem reads_zero {rest : List Char} (hstops : Digit.NoneAhead 8 rest) {bytes : List UInt8}
    (hrest : Reads rest bytes) : Reads ('\\' :: '0' :: rest) (0 :: bytes) := by
  refine Reads.cons (i := ⟨[0], rest⟩) ?_ hrest
  intro offset
  have hitem := Body.item_octal offset '0' [] rest (by decide) (by simp)
    (by simp) (Or.inr hstops)
  simpa [show Digit.number 8 ['0'] = 0 from rfl] using hitem

theorem reads_hex {byte : UInt8} {rest : List Char} (hstops : Digit.NoneAhead 16 rest)
    {bytes : List UInt8} (hrest : Reads rest bytes) :
    Reads ('\\' :: 'x' :: (Hex.pair byte ++ rest)) (byte :: bytes) := by
  refine Reads.cons (i := ⟨[byte], rest⟩) ?_ hrest
  intro offset
  have hitem := Body.item_hex offset (Hex.pair byte) rest (by simp [Hex.pair])
    (fun c hc => Spelling.isHex_of_mem_pair hc) hstops
  simpa [Spelling.number_pair, byte.toNat_lt] using hitem

/-- A spelling is read as its byte, when what follows does not continue it. -/
theorem reads_spelling {byte : UInt8} {rest : List Char} {bytes : List UInt8}
    (hstops : Stops (Spelling.ofByte byte) rest) (hrest : Reads rest bytes) :
    Reads ((Spelling.ofByte byte).text.toList ++ rest) (byte :: bytes) := by
  have hshape := Spelling.shape_ofByte byte
  generalize Spelling.ofByte byte = spelling at hshape hstops
  cases hshape with
  | plain value low high semicolon quote backslash =>
      -- only printable characters are written plainly, and those are ASCII
      have hascii := UInt32.lt_of_le_of_lt high (by decide : '~'.val < 128)
      subst value
      simpa using Reads.cons
        (fun offset => Body.item_plain offset hascii backslash quote rest) hrest
  | quoted form => simpa using reads_short form hrest
  | named form => simpa using reads_short form hrest
  | zero value => simpa [value] using reads_zero hstops.noneAhead_zero hrest
  | hex => simpa using reads_hex hstops.noneAhead_hex hrest

/-! ## Tokens -/

/-- What a literal is written from. -/
inductive Token where
  /-- The spelling of a byte. -/
  | spelled (byte : UInt8)
  | marker
deriving DecidableEq, Repr

namespace Token

/-- The text of a token. -/
def text : Token → List Char
  | spelled byte => (Spelling.ofByte byte).text.toList
  | marker => Spelling.marker.toList

/-- The byte that a token spells, if it is no marker. -/
def byte? : Token → Option UInt8
  | spelled byte => some byte
  | marker => none

/-- Whether `next` may stand right behind a token: the token does not swallow it. -/
def admits : Token → Token → Bool
  | spelled byte, spelled next => adjoins byte next
  | _, _ => true

end Token

/-- The texts of tokens, one behind the other. -/
def tokensText (tokens : List Token) : List Char := tokens.flatMap Token.text

/-- The bytes that tokens spell, in order. -/
def tokensBytes (tokens : List Token) : List UInt8 := tokens.filterMap Token.byte?

/-- The tokens of a chunk: its spellings, and a marker wherever one is owed. -/
def chunkTokens : List UInt8 → List Token
  | [] => []
  | byte :: chunk =>
    .spelled byte :: ((if needsMarker byte chunk then [.marker] else []) ++ chunkTokens chunk)

@[simp]
theorem tokensText_nil : tokensText [] = [] := rfl

@[simp]
theorem tokensText_spelled (byte : UInt8) (tokens : List Token) :
    tokensText (.spelled byte :: tokens)
      = (Spelling.ofByte byte).text.toList ++ tokensText tokens := rfl

@[simp]
theorem tokensText_marker (tokens : List Token) :
    tokensText (.marker :: tokens) = '"' :: '"' :: tokensText tokens := rfl

@[simp]
theorem tokensBytes_nil : tokensBytes [] = [] := rfl

@[simp]
theorem tokensBytes_spelled (byte : UInt8) (tokens : List Token) :
    tokensBytes (.spelled byte :: tokens) = byte :: tokensBytes tokens := rfl

@[simp]
theorem tokensBytes_marker (tokens : List Token) :
    tokensBytes (.marker :: tokens) = tokensBytes tokens := rfl

theorem tokensBytes_append (tokens tokens' : List Token) :
    tokensBytes (tokens ++ tokens') = tokensBytes tokens ++ tokensBytes tokens' :=
  List.filterMap_append

/-! ### The tokens of a chunk -/

theorem tokensText_chunkTokens (chunk : List UInt8) :
    tokensText (chunkTokens chunk) = (chunkText chunk).toList := by
  induction chunk with
  | nil => rfl
  | cons byte chunk ih =>
      rw [chunkText_cons, chunkTokens, separator]
      cases needsMarker byte chunk <;> simp [ih]

theorem tokensBytes_chunkTokens (chunk : List UInt8) : tokensBytes (chunkTokens chunk) = chunk := by
  induction chunk with
  | nil => rfl
  | cons byte chunk ih =>
      rw [chunkTokens]
      cases needsMarker byte chunk <;> simp [ih]

theorem head?_chunkTokens (chunk : List UInt8) :
    (chunkTokens chunk).head? = chunk.head?.map .spelled := by
  cases chunk with
  | nil => rfl
  | cons byte chunk => rfl

/-- A chunk ends with a spelling: no marker is owed to nothing. -/
theorem getLast?_chunkTokens (chunk : List UInt8) :
    (chunkTokens chunk).getLast? = chunk.getLast?.map .spelled := by
  induction chunk with
  | nil => rfl
  | cons byte chunk ih =>
      cases chunk with
      | nil => rfl
      | cons next chunk =>
          have hne : chunkTokens (next :: chunk) ≠ [] := by simp [chunkTokens]
          rw [chunkTokens, ← List.cons_append, List.getLast?_append_of_ne_nil _ hne, ih,
            List.getLast?_cons_cons]

/-- In a chunk no token swallows the next one. -/
theorem isChain_chunkTokens (chunk : List UInt8) :
    (chunkTokens chunk).IsChain fun token next => token.admits next = true := by
  induction chunk with
  | nil => exact .nil
  | cons byte chunk ih =>
      rw [chunkTokens]
      cases hneeds : needsMarker byte chunk with
      | true => exact .cons_cons rfl (List.isChain_cons.mpr ⟨fun _ _ => rfl, ih⟩)
      | false =>
          refine List.isChain_cons.mpr ⟨?_, ih⟩
          intro token htoken
          have hhead : token ∈ chunk.head?.map Token.spelled := by
            rw [← head?_chunkTokens]
            exact htoken
          cases chunk with
          | nil => cases hhead
          | cons next chunk =>
              cases hhead
              simpa [Token.admits, adjoins, needsMarker] using hneeds

/-! ## Tokens of which none swallows the next -/

/-- The text of tokens stops a spelling exactly when the first of them may stand behind it. -/
theorem stops_tokensText_iff {byte : UInt8} {tokens : List Token} :
    Stops (Spelling.ofByte byte) (tokensText tokens)
      ↔ ∀ next ∈ tokens.head?, (Token.spelled byte).admits next = true := by
  constructor
  · rintro h next hnext
    cases tokens with
    | nil => cases hnext
    | cons token tokens =>
        cases hnext
        cases next with
        | marker => rfl
        | spelled next => simpa [Token.admits, adjoins] using Spelling.not_swallows_of_stops h
  · intro h
    cases tokens with
    | nil => exact Stops.nil _
    | cons token tokens =>
        cases token with
        | marker => exact Stops.quote _ _
        | spelled next =>
            have hadjoins : adjoins byte next = true := h _ rfl
            exact Stops.text (by simpa [adjoins] using hadjoins) _

/-- Tokens of which none swallows the next are read as the bytes they spell. -/
theorem reads_tokens {tokens : List Token}
    (h : tokens.IsChain fun token next => token.admits next = true) :
    Reads (tokensText tokens) (tokensBytes tokens) := by
  induction tokens with
  | nil => exact Reads.nil
  | cons token tokens ih =>
      obtain ⟨hnext, hrest⟩ := List.isChain_cons.mp h
      cases token with
      | marker => exact Reads.marker (ih hrest)
      | spelled byte => exact reads_spelling (stops_tokensText_iff.mpr hnext) (ih hrest)

/-! ## Tokens that may swallow the next -/

/-- Whatever follows a spelling: if the two are read, then the spelling as one byte, with some
digits of what follows, and with none only if what follows stops it. -/
theorem exists_taken_of_item {byte : UInt8} {following text : List Char} {c : Char} {offset : Nat}
    {i : Body.Item} (hsplit : (Spelling.ofByte byte).text.toList ++ following = c :: text)
    (h : Body.item offset c text = .ok i) :
    i.meaning.length = 1
      ∧ ∃ digits, following = digits ++ i.rest ∧ (∀ d ∈ digits, Digit.isDigit 16 d = true)
        ∧ (digits = [] → Stops (Spelling.ofByte byte) following) := by
  have hshape := Spelling.shape_ofByte byte
  generalize Spelling.ofByte byte = spelling at hshape hsplit
  cases hshape with
  | plain value low high semicolon quote backslash =>
      have hascii := UInt32.lt_of_le_of_lt high (by decide : '~'.val < 128)
      simp only [Spelling.toList_text_plain, List.cons_append, List.nil_append] at hsplit
      cases hsplit
      rw [Body.item_plain offset hascii backslash quote] at h
      cases h
      exact ⟨rfl, [], rfl, by simp, fun _ _ _ => rfl⟩
  | quoted form =>
      simp only [Spelling.toList_text_quoted, List.cons_append, List.nil_append] at hsplit
      cases hsplit
      rw [Body.item_short offset (Body.shortEscape?_eq_some_iff.mpr form)] at h
      cases h
      exact ⟨rfl, [], rfl, by simp, fun _ _ _ => rfl⟩
  | named form =>
      simp only [Spelling.toList_text_named, List.cons_append, List.nil_append] at hsplit
      cases hsplit
      rw [Body.item_short offset (Body.shortEscape?_eq_some_iff.mpr form)] at h
      cases h
      exact ⟨rfl, [], rfl, by simp, fun _ => Spelling.stops_named form _⟩
  | zero value =>
      -- up to two octal digits are taken
      simp only [Spelling.toList_text_named, List.cons_append, List.nil_append] at hsplit
      cases hsplit
      obtain ⟨digits, rest, rfl, hdigits, hlength, hend⟩ := Digit.exists_run 8 2 following
      rw [Body.item_octal offset '0' digits rest (by decide) hdigits hlength hend] at h
      split at h
      · cases h
        refine ⟨rfl, digits, rfl, fun d hd => Digit.isDigit_mono (by decide) (hdigits d hd), ?_⟩
        rintro rfl
        rcases hend with hfull | hnone
        · cases hfull
        · exact hnone
      · cases h
  | hex =>
      -- all hexadecimal digits are taken
      simp only [Spelling.toList_text_hex, List.cons_append] at hsplit
      cases hsplit
      obtain ⟨digits, rest, rfl, hdigits, hnone⟩ := Digit.exists_span 16 following
      have hall : ∀ d ∈ Hex.pair byte ++ digits, Digit.isDigit 16 d = true := by
        intro d hd
        rcases List.mem_append.mp hd with hd | hd
        · exact Spelling.isHex_of_mem_pair hd
        · exact hdigits d hd
      have hitem :=
        Body.item_hex offset (Hex.pair byte ++ digits) rest (by simp [Hex.pair]) hall hnone
      rw [List.append_assoc] at hitem
      have h := hitem.symm.trans h
      split at h
      · cases h
        refine ⟨rfl, digits, rfl, hdigits, ?_⟩
        rintro rfl
        exact hnone
      · cases h

/-- Digits at the start of the text of tokens are whole tokens, each with a byte of its own. -/
theorem exists_tokens_of_digits {tokens : List Token} {digits rest : List Char}
    (h : tokensText tokens = digits ++ rest)
    (hdigits : ∀ d ∈ digits, Digit.isDigit 16 d = true) :
    ∃ taken left, tokens = taken ++ left ∧ tokensText left = rest
      ∧ taken.length = digits.length ∧ (tokensBytes taken).length = digits.length := by
  induction digits generalizing tokens with
  | nil => exact ⟨[], tokens, rfl, h, rfl, rfl⟩
  | cons d digits ih =>
      have hd := hdigits d List.mem_cons_self
      cases tokens with
      | nil => cases h
      | cons token tokens =>
          cases token with
          | marker =>
              obtain rfl : '"' = d := by
                have hhead := congrArg List.head? h
                simpa using hhead
              exact absurd hd (by decide)
          | spelled byte =>
              obtain ⟨-, hrest⟩ := Spelling.eq_plain_of_isDigit h hd
              obtain ⟨taken, left, rfl, hleft, hlength, hbytes⟩ :=
                ih hrest fun e he => hdigits e (List.mem_cons_of_mem _ he)
              refine ⟨.spelled byte :: taken, left, rfl, hleft, ?_, ?_⟩
              · rw [List.length_cons, List.length_cons, hlength]
              · rw [tokensBytes_spelled, List.length_cons, List.length_cons, hbytes]

/-- Tokens are never read as more bytes than they spell, and as fewer if one swallows the next. -/
theorem length_of_bytesFrom {tokens : List Token} {offset : Nat} {bytes : List UInt8}
    (h : Body.bytesFrom offset (tokensText tokens) = .ok bytes) :
    bytes.length ≤ (tokensBytes tokens).length
      ∧ ((¬ tokens.IsChain fun token next => token.admits next = true) →
        bytes.length < (tokensBytes tokens).length) := by
  -- an escape may take several tokens at once, so the induction is on how many there are
  induction hcount : tokens.length using Nat.strongRecOn generalizing tokens offset bytes with
  | ind n ih =>
      cases tokens with
      | nil =>
          rw [tokensText_nil, Body.bytesFrom] at h
          cases h
          exact ⟨Nat.le_refl _, fun hnot => absurd .nil hnot⟩
      | cons token tokens =>
          cases token with
          | marker =>
              obtain ⟨i, offset', following, hitem, hfollowing, rfl⟩ := Body.bytesFrom_cons_eq_ok h
              cases hitem
              obtain ⟨hle, hlt⟩ := ih _ (hcount ▸ Nat.lt_succ_self _) hfollowing rfl
              refine ⟨hle, fun hnot => hlt fun hchain => hnot ?_⟩
              exact List.isChain_cons.mpr ⟨fun _ _ => rfl, hchain⟩
          | spelled byte =>
              obtain ⟨c, text, hsplit⟩ : ∃ c text,
                  (Spelling.ofByte byte).text.toList ++ tokensText tokens = c :: text := by
                refine List.exists_cons_of_ne_nil ?_
                simp [Spelling.text_ne_empty]
              rw [tokensText_spelled, hsplit] at h
              obtain ⟨i, offset', following, hitem, hfollowing, rfl⟩ := Body.bytesFrom_cons_eq_ok h
              obtain ⟨hone, digits, htext, hdigits, hstops⟩ := exists_taken_of_item hsplit hitem
              obtain ⟨taken, left, rfl, hleft, htaken, hbytes⟩ :=
                exists_tokens_of_digits htext hdigits
              rw [← hleft] at hfollowing
              have hshorter : left.length < n := by
                rw [← hcount, List.length_cons, List.length_append]
                omega
              obtain ⟨hle, hlt⟩ := ih _ hshorter hfollowing rfl
              rw [tokensBytes_spelled, tokensBytes_append, List.length_cons, List.length_append,
                List.length_append, hone, hbytes]
              refine ⟨by omega, ?_⟩
              intro hnot
              by_cases hempty : digits = []
              · -- nothing was swallowed here, so something is swallowed further on
                have hnone : taken = [] := by simpa [hempty] using htaken
                have hnext := stops_tokensText_iff.mp (hstops hempty)
                rw [hnone, List.nil_append] at hnot hnext
                have hless := hlt fun hchain => hnot (List.isChain_cons.mpr ⟨hnext, hchain⟩)
                omega
              · -- every digit that was swallowed is a byte less
                have hpositive : 0 < digits.length := List.length_pos_iff.mpr hempty
                omega

/-- Tokens are read as the bytes they spell exactly when none swallows the next. -/
theorem bytesFrom_tokensText_iff (tokens : List Token) (offset : Nat) :
    Body.bytesFrom offset (tokensText tokens) = .ok (tokensBytes tokens)
      ↔ tokens.IsChain fun token next => token.admits next = true := by
  constructor
  · intro h
    by_contra hnot
    exact Nat.lt_irrefl _ ((length_of_bytesFrom h).2 hnot)
  · intro h
    exact reads_tokens h offset

end ByteEmbed.Literal
