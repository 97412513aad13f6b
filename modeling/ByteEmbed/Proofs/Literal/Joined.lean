import ByteEmbed.Proofs.Literal.RoundTrip

/-!
# ByteEmbed.Proofs.Literal.Joined — segments written one behind the other, with nothing between.

Each segment is a literal of its own, and the marker that its last byte owed is dropped.  When
segments are joined to one body, that marker is missed wherever the last byte of a segment swallows
the first byte of the next.  This is the only thing that can go wrong (`read_joined`): without such
a cut the body is read as the bytes, and with one it is refused, or read as too few bytes.
-/

namespace ByteEmbed.Literal

/-- `x` and `y` stand next to each other, but in different parts. -/
def Parted (parts : List (List UInt8)) (x y : UInt8) : Prop :=
  ∃ before part next after, parts = before ++ (part ++ [x]) :: (y :: next) :: after

/-! ## The tokens of joined segments -/

/-- The joined segments are the tokens of the chunks, with none at the cuts. -/
theorem toList_joined (bytes : List UInt8) (maxWidth : Nat) :
    (ofBytes bytes maxWidth).joined.toList
      = tokensText ((chunks maxWidth bytes).map chunkTokens).flatten := by
  rw [joined, segments_ofBytes]
  induction chunks maxWidth bytes with
  | nil => rfl
  | cons chunk parts ih =>
      rw [List.map_cons, List.map_cons, List.flatten_cons, tokensText, List.flatMap_append,
        String.join_cons, String.toList_append, ih]
      exact congrArg (· ++ _) (tokensText_chunkTokens chunk).symm

theorem tokensBytes_flatten (parts : List (List UInt8)) :
    tokensBytes (parts.map chunkTokens).flatten = parts.flatten := by
  induction parts with
  | nil => rfl
  | cons chunk parts ih =>
      rw [List.map_cons, List.flatten_cons, List.flatten_cons, tokensBytes_append,
        tokensBytes_chunkTokens, ih]

/-- Chunks joined hold no token that swallows the next, exactly when no cut stands between two bytes
of which the first swallows the second. -/
theorem isChain_flatten_chunkTokens_iff {parts : List (List UInt8)} (hne : [] ∉ parts) :
    ((parts.map chunkTokens).flatten.IsChain fun token next => token.admits next = true)
      ↔ ∀ x y, Parted parts x y → (Spelling.ofByte x).swallows (Spelling.ofByte y) = false := by
  have hnil : [] ∉ parts.map chunkTokens := by
    intro hmem
    obtain ⟨chunk, hchunk, hempty⟩ := List.mem_map.mp hmem
    cases chunk with
    | nil => exact hne hchunk
    | cons byte chunk => cases hempty
  rw [List.isChain_flatten hnil, List.isChain_map]
  have hchunks : ∀ tokens ∈ parts.map chunkTokens,
      tokens.IsChain fun token next => token.admits next = true := by
    intro tokens htokens
    obtain ⟨chunk, -, rfl⟩ := List.mem_map.mp htokens
    exact isChain_chunkTokens chunk
  rw [and_iff_right hchunks, List.isChain_iff_forall_rel_of_append_cons_cons]
  constructor
  · rintro h x y ⟨before, part, next, after, rfl⟩
    have hadmits := h rfl (.spelled x) (by simp [getLast?_chunkTokens]) (.spelled y)
      (by simp [head?_chunkTokens])
    simpa [Token.admits, adjoins] using hadmits
  · rintro h part next before after rfl token htoken token' htoken'
    rw [getLast?_chunkTokens] at htoken
    rw [head?_chunkTokens] at htoken'
    obtain ⟨x, hx, rfl⟩ := Option.map_eq_some_iff.mp htoken
    obtain ⟨y, hy, rfl⟩ := Option.map_eq_some_iff.mp htoken'
    obtain ⟨init, rfl⟩ := List.getLast?_eq_some_iff.mp hx
    obtain ⟨tail, rfl⟩ := List.head?_eq_some_iff.mp hy
    simpa [Token.admits, adjoins] using h x y ⟨before, init, tail, after, rfl⟩

/-- **Joined segments.** The bodies of all segments in one are read as the bytes exactly when no two
neighbouring bytes, of which the first swallows the second, stand in different segments; and if two
do, the body is refused or read as fewer bytes. -/
theorem read_joined (bytes : List UInt8) (maxWidth : Nat) :
    ∃ parts, (ofBytes bytes maxWidth).segments.mapM Body.read = .ok parts
      ∧ parts.flatten = bytes ∧ [] ∉ parts
      ∧ (Body.read (ofBytes bytes maxWidth).joined = .ok bytes
        ↔ ∀ x y, Parted parts x y → (Spelling.ofByte x).swallows (Spelling.ofByte y) = false)
      ∧ ((∃ x y, Parted parts x y ∧ (Spelling.ofByte x).swallows (Spelling.ofByte y) = true) →
        (∃ e, Body.read (ofBytes bytes maxWidth).joined = .error e)
        ∨ ∃ fewer, Body.read (ofBytes bytes maxWidth).joined = .ok fewer
          ∧ fewer.length < bytes.length) := by
  have hne : [] ∉ chunks maxWidth bytes := fun hmem => ne_nil_of_mem_chunks hmem rfl
  have hchain := isChain_flatten_chunkTokens_iff hne
  have hread : Body.read (ofBytes bytes maxWidth).joined
      = Body.bytesFrom 0 (tokensText ((chunks maxWidth bytes).map chunkTokens).flatten) := by
    rw [Body.read, toList_joined]
  have hbytes : tokensBytes ((chunks maxWidth bytes).map chunkTokens).flatten = bytes := by
    rw [tokensBytes_flatten, flatten_chunks]
  refine ⟨chunks maxWidth bytes, ?_, flatten_chunks maxWidth bytes, hne, ?_, ?_⟩
  · rw [segments_ofBytes, mapM_read_chunkText]
  · have hiff := bytesFrom_tokensText_iff ((chunks maxWidth bytes).map chunkTokens).flatten 0
    rwa [hbytes, hchain, ← hread] at hiff
  · rintro ⟨x, y, hparted, hswallows⟩
    have hnot : ¬ ((chunks maxWidth bytes).map chunkTokens).flatten.IsChain
        fun token next => token.admits next = true := by
      intro h
      have hfree := hchain.mp h x y hparted
      rw [hswallows] at hfree
      cases hfree
    rw [hread]
    cases hresult : Body.bytesFrom 0
        (tokensText ((chunks maxWidth bytes).map chunkTokens).flatten) with
    | error e => exact Or.inl ⟨e, rfl⟩
    | ok fewer =>
        have hless := (length_of_bytesFrom hresult).2 hnot
        rw [hbytes] at hless
        exact Or.inr ⟨fewer, rfl, hless⟩

/-- Cut apart, the escape takes the digit of the next segment: two bytes are read as one. -/
example : Body.read (ofBytes [0x01, 0x32] 0).joined = .ok [0x12] := by decide +kernel

end ByteEmbed.Literal
