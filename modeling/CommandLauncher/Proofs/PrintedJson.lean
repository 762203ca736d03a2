/-
  PRINTED JSON — what is printed is read back.

  1. **Strings** — each character is printed as one glyph: itself, or the code unit of a control
     character without a short form (`glyphOf`).  The glyphs of a text decode to the text.

  2. **Tokens** — `Scans cs ts` says that the characters are read as the tokens, whatever comes
     behind them.  So the tokens of what is printed in a row stand in a row, and the layout adds
     none (`scans_print`, an induction on the value).

  3. **Nodes** — the tokens of a value are read as its node, with fuel for twice as many calls as
     there are tokens (`nodeOf_tokens`).  Of a container's fuel one call goes to each item and
     the rest to what is behind it.

  Numbers are left out, since nothing that is kept on disk is one (`isPlain`).
-/
import CommandLauncher.Document.Json.Printing
import CommandLauncher.Document.Json.Reading

namespace CommandLauncher.Document

namespace Json

/-! ## Strings -/

/-- The control characters that are written by a letter. -/
def isLettered (c : Char) : Bool :=
  c == '\x08' || c == '\x0c' || c == '\n' || c == '\r' || c == '\t'

/-- The glyph as which a character is printed. -/
def glyphOf (c : Char) : Glyph :=
  if c.toNat < 0x20 ∧ isLettered c = false then .unit c.toNat else .char c

/-- The glyphs of a text. -/
def glyphsOf (s : String) : List Glyph := s.toList.map glyphOf

/-- The unit of a control character is read back from its two digits. -/
theorem unit?_hexDigit : ∀ n, n < 0x20 →
    unit? '0' '0' (hexDigit (n / 16)) (hexDigit (n % 16)) = some n := by decide

theorem glyphs?_plain {c : Char} (hquote : c ≠ '"') (hslash : c ≠ '\\')
    (hcontrol : ¬ c.toNat < 0x20) (cs : List Char) :
    glyphs? (c :: cs) = (glyphs? cs).map fun (gs, after) => (.char c :: gs, after) := by
  rw [glyphs?]
  · simp [hslash, hcontrol]
  · exact hquote
  · exact fun _ _ _ _ _ h => absurd h hslash
  · exact fun _ _ h => absurd h hslash

/-- A letter behind a backslash is read as the character it stands for. -/
theorem glyphs?_escape {e c : Char} (hu : e ≠ 'u') (h : escape? e = some c) (cs : List Char) :
    glyphs? ('\\' :: e :: cs) = (glyphs? cs).map fun (gs, after) => (.char c :: gs, after) := by
  rw [glyphs?]
  · rw [h]
    cases glyphs? cs <;> rfl
  · exact fun _ _ _ _ _ h => absurd h hu

theorem glyphs?_unit {a b c d : Char} {n : Nat} (h : unit? a b c d = some n) (cs : List Char) :
    glyphs? ('\\' :: 'u' :: a :: b :: c :: d :: cs) =
      (glyphs? cs).map fun (gs, after) => (.unit n :: gs, after) := by
  rw [glyphs?, h]
  cases glyphs? cs <;> rfl

/-- A printed character is read as its glyph. -/
theorem glyphs?_escaped (c : Char) (cs : List Char) :
    glyphs? (escaped c ++ cs) = (glyphs? cs).map fun (gs, after) => (glyphOf c :: gs, after) := by
  unfold escaped
  -- a quote and a backslash
  split
  · subst_vars
    exact glyphs?_escape (by decide) rfl cs
  split
  · subst_vars
    exact glyphs?_escape (by decide) rfl cs
  rename_i hquote hslash
  split
  · rename_i hcontrol
    -- the control characters that have a letter, then all others
    split
    · subst_vars
      exact glyphs?_escape (by decide) rfl cs
    split
    · subst_vars
      exact glyphs?_escape (by decide) rfl cs
    split
    · subst_vars
      exact glyphs?_escape (by decide) rfl cs
    split
    · subst_vars
      exact glyphs?_escape (by decide) rfl cs
    split
    · subst_vars
      exact glyphs?_escape (by decide) rfl cs
    rename_i h₁ h₂ h₃ h₄ h₅
    have hunit : glyphOf c = .unit c.toNat := if_pos ⟨hcontrol, by simp [isLettered, *]⟩
    rw [hunit]
    exact glyphs?_unit (unit?_hexDigit c.toNat hcontrol) cs
  · rename_i hcontrol
    have hchar : glyphOf c = .char c := if_neg fun h => hcontrol h.1
    rw [hchar]
    exact glyphs?_plain hquote hslash hcontrol cs

/-- A printed text is read up to its closing quote. -/
theorem glyphs?_text (cs rest : List Char) :
    glyphs? (cs.flatMap escaped ++ '"' :: rest) = some (cs.map glyphOf, rest) := by
  induction cs with
  | nil => rfl
  | cons c cs ih =>
    rw [List.flatMap_cons, List.append_assoc, glyphs?_escaped, ih]
    rfl

/-- The glyphs of a text decode to the text. -/
theorem decode_glyphs (cs : List Char) : decode (cs.map glyphOf) = some cs := by
  induction cs with
  | nil => rfl
  | cons c cs ih =>
    rw [List.map_cons, glyphOf]
    split
    · rename_i h
      -- the units of control characters are far below the surrogates
      have hhigh : isHighUnit c.toNat = false := by
        simp only [isHighUnit, Bool.and_eq_false_iff, decide_eq_false_iff_not]
        omega
      have hlow : isLowUnit c.toNat = false := by
        simp only [isLowUnit, Bool.and_eq_false_iff, decide_eq_false_iff_not]
        omega
      rw [decode.eq_def]
      simp [hhigh, hlow, ih]
    · rw [decode, ih]
      rfl

theorem ofGlyphs_glyphsOf (s : String) : Leaf.ofGlyphs (glyphsOf s) = .text s := by
  rw [Leaf.ofGlyphs, glyphsOf, decode_glyphs]
  simp

/-! ## Tokens -/

theorem tokensOf_space {c : Char} (h : isSpace c = true) (cs : List Char) :
    tokensOf (c :: cs) = tokensOf cs := by
  have hdrop : (c :: cs).dropWhile isSpace = cs.dropWhile isSpace := by
    rw [List.dropWhile_cons_of_pos h]
  rw [tokensOf, tokensOf, hdrop]

theorem tokensOf_token {c : Char} {cs rest : List Char} {t : Token} (hc : isSpace c = false)
    (h : token? (c :: cs) = some (t, rest)) : tokensOf (c :: cs) = t :: tokensOf rest := by
  have hdrop : (c :: cs).dropWhile isSpace = c :: cs := by
    rw [List.dropWhile_cons_of_neg (by simp [hc])]
  rw [tokensOf]
  split
  · rename_i hnil
    rw [hdrop] at hnil
    cases hnil
  · rename_i d ds hds
    rw [hdrop] at hds
    obtain ⟨rfl, rfl⟩ := List.cons.inj hds
    split
    · rename_i hnone
      rw [h] at hnone
      cases hnone
    · rename_i t' rest' hsome
      rw [h] at hsome
      obtain ⟨rfl, rfl⟩ := Prod.mk.inj (Option.some.inj hsome)
      rfl

/-- `Scans cs ts` — the characters are read as the tokens, whatever comes behind them. -/
def Scans (cs : List Char) (ts : List Token) : Prop :=
  ∀ rest, tokensOf (cs ++ rest) = ts ++ tokensOf rest

namespace Scans

theorem nil : Scans [] [] := fun _ => rfl

theorem append {cs ds : List Char} {ts us : List Token} (h : Scans cs ts) (h' : Scans ds us) :
    Scans (cs ++ ds) (ts ++ us) := by
  intro rest
  rw [List.append_assoc, h, h', List.append_assoc]

/-- A token that starts with a character of its own. -/
theorem token {c : Char} {cs : List Char} {t : Token} (hc : isSpace c = false)
    (h : ∀ rest, token? (c :: cs ++ rest) = some (t, rest)) : Scans (c :: cs) [t] :=
  fun rest => tokensOf_token hc (h rest)

/-- A token in front. -/
theorem cons {c : Char} {cs : List Char} {t : Token} {ts : List Token} (hc : isSpace c = false)
    (ht : ∀ rest, token? (c :: rest) = some (t, rest)) (h : Scans cs ts) :
    Scans (c :: cs) (t :: ts) :=
  append (show Scans [c] [t] from token hc ht) h

/-- Blanks in front. -/
theorem space {c : Char} {cs : List Char} {ts : List Token} (hc : isSpace c = true)
    (h : Scans cs ts) : Scans (c :: cs) ts :=
  fun rest => (tokensOf_space hc _).trans (h rest)

/-- Layout behind tokens. -/
theorem layout {cs ds : List Char} {ts : List Token} (h : Scans cs ts) (h' : Scans ds []) :
    Scans (cs ++ ds) ts := by
  have hboth := h.append h'
  rwa [List.append_nil] at hboth

theorem newLine (depth : Nat) : Scans (newLine depth) [] := by
  refine space (by decide) ?_
  induction 2 * depth with
  | zero => exact nil
  | succ n ih => exact space (by decide) ih

theorem stringText (s : String) : Scans (stringText s) [.string (glyphsOf s)] := by
  refine token (by decide) fun rest => ?_
  show (glyphs? (s.toList.flatMap escaped ++ ['"'] ++ rest)).map _ = _
  rw [List.append_assoc]
  exact congrArg (Option.map _) (glyphs?_text s.toList rest)

end Scans

end Json

namespace Value

open Json

mutual
/-- Whether no number is in a value. -/
def isPlain : Value → Bool
  | null => true
  | flag _ => true
  | number _ => false
  | text _ => true
  | list vs => arePlain vs
  | record fs => arePlainFields fs

def arePlain : List Value → Bool
  | [] => true
  | v :: vs => isPlain v && arePlain vs

def arePlainFields : List (String × Value) → Bool
  | [] => true
  | (_, v) :: fs => isPlain v && arePlainFields fs
end

mutual
/-- The tokens of a value. -/
def tokens : Value → List Token
  | null => [.null]
  | flag b => [.flag b]
  | number _ => []
  | text s => [.string (glyphsOf s)]
  | list [] => [.openBracket, .closeBracket]
  | list (v :: vs) => .openBracket :: tokens v ++ itemTokens vs ++ [.closeBracket]
  | record [] => [.openBrace, .closeBrace]
  | record (f :: fs) => .openBrace :: fieldTokens f ++ fieldsTokens fs ++ [.closeBrace]

/-- The tokens of the further items of a list. -/
def itemTokens : List Value → List Token
  | [] => []
  | v :: vs => .comma :: tokens v ++ itemTokens vs

/-- The tokens of a field. -/
def fieldTokens : String × Value → List Token
  | (name, v) => .string (glyphsOf name) :: .colon :: tokens v

/-- The tokens of the further fields of a record. -/
def fieldsTokens : List (String × Value) → List Token
  | [] => []
  | f :: fs => .comma :: fieldTokens f ++ fieldsTokens fs
end

mutual
/-- What is printed for a value is read as its tokens. -/
theorem scans_print (depth : Nat) : ∀ v : Value, v.isPlain = true →
    Scans (v.print depth) v.tokens
  | null, _ => by
    rw [print, tokens]
    exact Scans.token (by decide) fun _ => rfl
  | flag true, _ => by
    rw [print, tokens]
    exact Scans.token (by decide) fun _ => rfl
  | flag false, _ => by
    rw [print, tokens]
    exact Scans.token (by decide) fun _ => rfl
  | number _, h => by
    rw [isPlain] at h
    cases h
  | text s, _ => by
    rw [print, tokens]
    exact Scans.stringText s
  | list [], _ => by
    rw [print, tokens]
    exact Scans.cons (by decide) (fun _ => rfl) (Scans.token (by decide) fun _ => rfl)
  | list (v :: vs), h => by
    rw [isPlain, arePlain, Bool.and_eq_true] at h
    rw [print, tokens]
    -- layout always stands behind a sign, and goes with it
    have hopen : Scans ('[' :: newLine (depth + 1)) [.openBracket] :=
      Scans.cons (by decide) (fun _ => rfl) (Scans.newLine _)
    have hitems := (hopen.append (scans_print (depth + 1) v h.1)).append
      (scans_printItems (depth + 1) vs h.2)
    exact (hitems.layout (Scans.newLine depth)).append (Scans.token (by decide) fun _ => rfl)
  | record [], _ => by
    rw [print, tokens]
    exact Scans.cons (by decide) (fun _ => rfl) (Scans.token (by decide) fun _ => rfl)
  | record ((name, v) :: fs), h => by
    rw [isPlain, arePlainFields, Bool.and_eq_true] at h
    rw [print, tokens]
    have hopen : Scans ('{' :: newLine (depth + 1)) [.openBrace] :=
      Scans.cons (by decide) (fun _ => rfl) (Scans.newLine _)
    have hfields := (hopen.append (scans_printField (depth + 1) name v h.1)).append
      (scans_printFields (depth + 1) fs h.2)
    exact (hfields.layout (Scans.newLine depth)).append (Scans.token (by decide) fun _ => rfl)

theorem scans_printItems (depth : Nat) : ∀ vs : List Value, arePlain vs = true →
    Scans (printItems depth vs) (itemTokens vs)
  | [], _ => by
    rw [printItems, itemTokens]
    exact Scans.nil
  | v :: vs, h => by
    rw [arePlain, Bool.and_eq_true] at h
    rw [printItems, itemTokens]
    have hcomma : Scans (',' :: newLine depth) [.comma] :=
      Scans.cons (by decide) (fun _ => rfl) (Scans.newLine _)
    exact (hcomma.append (scans_print depth v h.1)).append (scans_printItems depth vs h.2)

theorem scans_printField (depth : Nat) (name : String) : ∀ v : Value, v.isPlain = true →
    Scans (printField depth (name, v)) (fieldTokens (name, v))
  | v, h => by
    rw [printField, fieldTokens]
    have hcolon : Scans [':', ' '] [.colon] :=
      Scans.cons (by decide) (fun _ => rfl) (Scans.space (by decide) Scans.nil)
    exact ((Scans.stringText name).append hcolon).append (scans_print depth v h)

theorem scans_printFields (depth : Nat) : ∀ fs : List (String × Value), arePlainFields fs = true →
    Scans (printFields depth fs) (fieldsTokens fs)
  | [], _ => by
    rw [printFields, fieldsTokens]
    exact Scans.nil
  | (name, v) :: fs, h => by
    rw [arePlainFields, Bool.and_eq_true] at h
    rw [printFields, fieldsTokens]
    have hcomma : Scans (',' :: newLine depth) [.comma] :=
      Scans.cons (by decide) (fun _ => rfl) (Scans.newLine _)
    exact (hcomma.append (scans_printField depth name v h.1)).append (scans_printFields depth fs h.2)
end

end Value

/-! ## Nodes -/

namespace Json

section Steps

variable {fuel : Nat} {t : Token} {ts us rest : List Token} {n k : Node}

theorem nodeOf_list {items : List Node} {whole : Bool} (ht : t ≠ .closeBracket)
    (h : itemsOf fuel (t :: ts) = (items, whole, rest)) :
    nodeOf (fuel + 1) (.openBracket :: t :: ts) = (.sequence items whole, rest) := by
  rw [nodeOf, h]
  exact fun us hus => ht (List.cons.inj hus).1

theorem nodeOf_record {entries : List (Node × Node)} {whole : Bool} (ht : t ≠ .closeBrace)
    (h : entriesOf fuel (t :: ts) = (entries, whole, rest)) :
    nodeOf (fuel + 1) (.openBrace :: t :: ts) = (.mapping entries whole, rest) := by
  rw [nodeOf, h]
  exact fun us hus => ht (List.cons.inj hus).1

theorem itemsOf_last (hn : n.isWhole = true) (h : nodeOf fuel ts = (n, .closeBracket :: rest)) :
    itemsOf (fuel + 1) ts = ([n], true, rest) := by
  rw [itemsOf, h]
  simp [hn]

theorem itemsOf_more {items : List Node} {whole : Bool} (hn : n.isWhole = true)
    (ht : t ≠ .closeBracket) (h : nodeOf fuel ts = (n, .comma :: t :: us))
    (hmore : itemsOf fuel (t :: us) = (items, whole, rest)) :
    itemsOf (fuel + 1) ts = (n :: items, whole, rest) := by
  rw [itemsOf, h]
  simp only [hn, hmore, Bool.not_true, Bool.false_eq_true, if_false]
  split
  · rename_i hclose
    exact absurd (List.cons.inj hclose).1 ht
  · rfl

theorem entriesOf_last (hn : n.isWhole = true) (hkey : nodeOf fuel ts = (k, .colon :: us))
    (h : nodeOf fuel us = (n, .closeBrace :: rest)) :
    entriesOf (fuel + 1) ts = ([(k, n)], true, rest) := by
  rw [entriesOf, hkey]
  simp [hn, h]

theorem entriesOf_more {vs : List Token} {entries : List (Node × Node)} {whole : Bool}
    (hn : n.isWhole = true) (ht : t ≠ .closeBrace) (hkey : nodeOf fuel ts = (k, .colon :: us))
    (h : nodeOf fuel us = (n, .comma :: t :: vs))
    (hmore : entriesOf fuel (t :: vs) = (entries, whole, rest)) :
    entriesOf (fuel + 1) ts = ((k, n) :: entries, whole, rest) := by
  rw [entriesOf, hkey]
  simp only [hn, h, hmore, Bool.not_true, Bool.false_eq_true, if_false]
  split
  · rename_i hclose
    exact absurd (List.cons.inj hclose).1 ht
  · rfl

end Steps

end Json

namespace Value

open Json

mutual
/-- The node of a value. -/
def node : Value → Json.Node
  | null => .leaf .null
  | flag b => .leaf (.flag b)
  | number _ => .broken
  | text s => .leaf (.text s)
  | list vs => .sequence (nodes vs) true
  | record fs => .mapping (fieldNodes fs) true

def nodes : List Value → List Json.Node
  | [] => []
  | v :: vs => node v :: nodes vs

def fieldNodes : List (String × Value) → List (Json.Node × Json.Node)
  | [] => []
  | (name, v) :: fs => (.leaf (.text name), node v) :: fieldNodes fs
end

theorem isWhole_node {v : Value} (h : v.isPlain = true) : v.node.isWhole = true := by
  cases v with
  | number _ =>
    rw [isPlain] at h
    cases h
  | _ => rw [node, Node.isWhole]

/-- A value does not start with a closing sign. -/
theorem tokens_start {v : Value} (h : v.isPlain = true) :
    ∃ t ts, v.tokens = t :: ts ∧ t ≠ .closeBracket := by
  cases v with
  | number _ =>
    rw [isPlain] at h
    cases h
  | list vs =>
    cases vs with
    | nil => exact ⟨.openBracket, _, by rw [tokens], nofun⟩
    | cons w ws => exact ⟨.openBracket, _, by rw [tokens]; rfl, nofun⟩
  | record fs =>
    cases fs with
    | nil => exact ⟨.openBrace, _, by rw [tokens], nofun⟩
    | cons f fs => exact ⟨.openBrace, _, by rw [tokens]; rfl, nofun⟩
  | null => exact ⟨.null, [], by rw [tokens], nofun⟩
  | flag b => exact ⟨.flag b, [], by rw [tokens], nofun⟩
  | text s => exact ⟨.string (glyphsOf s), [], by rw [tokens], nofun⟩

theorem nodeOf_string {fuel : Nat} (h : 0 < fuel) (name : String) (rest : List Token) :
    nodeOf fuel (.string (glyphsOf name) :: rest) = (.leaf (.text name), rest) := by
  obtain ⟨k, rfl⟩ : ∃ k, fuel = k + 1 := ⟨fuel - 1, by omega⟩
  rw [nodeOf, ofGlyphs_glyphsOf]

mutual
/-- The tokens of a value are read as its node. -/
theorem nodeOf_tokens (rest : List Token) : ∀ (v : Value) (fuel : Nat), v.isPlain = true →
    2 * v.tokens.length ≤ fuel → nodeOf fuel (v.tokens ++ rest) = (v.node, rest)
  | v, 0, h, hfuel => by
    -- every value has a token, so there is fuel
    obtain ⟨t, ts, hstart, -⟩ := tokens_start h
    rw [hstart] at hfuel
    simp at hfuel
  | null, fuel + 1, _, _ => by
    rw [tokens, node]
    rfl
  | flag b, fuel + 1, _, _ => by
    rw [tokens, node]
    rfl
  | number _, fuel + 1, h, _ => by
    rw [isPlain] at h
    cases h
  | text s, fuel + 1, _, _ => by
    rw [tokens, node]
    exact nodeOf_string (by omega) s rest
  | list [], fuel + 1, _, _ => by
    rw [tokens, node, nodes]
    rfl
  | list (v :: vs), fuel + 1, h, hfuel => by
    rw [isPlain, arePlain, Bool.and_eq_true] at h
    rw [tokens] at hfuel ⊢
    simp only [List.length_append, List.length_cons, List.length_nil] at hfuel
    have hitems := itemsOf_tokens rest v vs fuel h.1 h.2 (by omega)
    -- the reader looks for the closing sign of an empty list first
    obtain ⟨t, ts, hstart, ht⟩ := tokens_start h.1
    rw [hstart] at hitems ⊢
    rw [node, nodes]
    simp only [List.append_assoc, List.cons_append, List.nil_append] at hitems ⊢
    exact nodeOf_list ht hitems
  | record [], fuel + 1, _, _ => by
    rw [tokens, node, fieldNodes]
    rfl
  | record ((name, v) :: fs), fuel + 1, h, hfuel => by
    rw [isPlain, arePlainFields, Bool.and_eq_true] at h
    rw [tokens, fieldTokens] at hfuel ⊢
    simp only [List.length_append, List.length_cons, List.length_nil] at hfuel
    have hfields := entriesOf_tokens rest v fs fuel name h.1 h.2 (by omega)
    rw [node, fieldNodes]
    simp only [List.append_assoc, List.cons_append, List.nil_append] at hfields ⊢
    exact nodeOf_record nofun hfields

theorem itemsOf_tokens (rest : List Token) : ∀ (v : Value) (vs : List Value) (fuel : Nat),
    v.isPlain = true → arePlain vs = true →
    2 * (v.tokens.length + (itemTokens vs).length) + 1 ≤ fuel →
    itemsOf fuel (v.tokens ++ (itemTokens vs ++ .closeBracket :: rest)) =
      (node v :: nodes vs, true, rest)
  | _, _, 0, _, _, hfuel => by omega
  | v, [], fuel + 1, hv, _, hfuel => by
    rw [itemTokens, List.length_nil] at hfuel
    rw [itemTokens, nodes]
    exact itemsOf_last (isWhole_node hv) (nodeOf_tokens _ v fuel hv (by omega))
  | v, w :: vs, fuel + 1, hv, hvs, hfuel => by
    rw [arePlain, Bool.and_eq_true] at hvs
    rw [itemTokens] at hfuel ⊢
    simp only [List.length_append, List.length_cons] at hfuel
    have hitem := nodeOf_tokens (.comma :: tokens w ++ itemTokens vs ++ .closeBracket :: rest) v
      fuel hv (by omega)
    have hmore := itemsOf_tokens rest w vs fuel hvs.1 hvs.2 (by omega)
    -- and behind a comma for one that must not be there
    obtain ⟨t, ts, hstart, ht⟩ := tokens_start hvs.1
    rw [hstart] at hitem hmore ⊢
    rw [nodes]
    simp only [List.append_assoc, List.cons_append] at hitem hmore ⊢
    exact itemsOf_more (isWhole_node hv) ht hitem hmore

theorem entriesOf_tokens (rest : List Token) :
    ∀ (v : Value) (fs : List (String × Value)) (fuel : Nat) (name : String),
    v.isPlain = true → arePlainFields fs = true →
    2 * (v.tokens.length + (fieldsTokens fs).length + 2) + 1 ≤ fuel →
    entriesOf fuel (.string (glyphsOf name) :: .colon :: (v.tokens ++ (fieldsTokens fs ++
      .closeBrace :: rest))) = ((.leaf (.text name), node v) :: fieldNodes fs, true, rest)
  | _, _, 0, _, _, _, hfuel => by omega
  | v, [], fuel + 1, name, hv, _, hfuel => by
    rw [fieldsTokens, List.length_nil] at hfuel
    rw [fieldsTokens, fieldNodes]
    exact entriesOf_last (isWhole_node hv) (nodeOf_string (by omega) name _)
      (nodeOf_tokens _ v fuel hv (by omega))
  | v, (other, w) :: fs, fuel + 1, name, hv, hfs, hfuel => by
    rw [arePlainFields, Bool.and_eq_true] at hfs
    rw [fieldsTokens, fieldTokens] at hfuel ⊢
    simp only [List.length_append, List.length_cons] at hfuel
    rw [fieldNodes]
    simp only [List.append_assoc, List.cons_append]
    exact entriesOf_more (isWhole_node hv) (by simp) (nodeOf_string (by omega) name _)
      (nodeOf_tokens _ v fuel hv (by omega))
      (entriesOf_tokens rest w fs fuel other hfs.1 hfs.2 (by omega))
end

/-! ## Documents -/

theorem arePlain_map {α : Type} {f : α → Value} (h : ∀ a, (f a).isPlain = true) (xs : List α) :
    arePlain (xs.map f) = true := by
  induction xs with
  | nil => rw [List.map_nil, arePlain]
  | cons x xs ih => rw [List.map_cons, arePlain, h, ih, Bool.and_self]

theorem arePlainFields_append (fs gs : List (String × Value)) :
    arePlainFields (fs ++ gs) = (arePlainFields fs && arePlainFields gs) := by
  induction fs with
  | nil => rw [List.nil_append, arePlainFields, Bool.true_and]
  | cons f fs ih => rw [List.cons_append, arePlainFields, ih, arePlainFields, Bool.and_assoc]

/-- **A printed value is read back as its node**, and nothing stands behind it but layout. -/
theorem reading_toJson {v : Value} (h : v.isPlain = true) (layout : String)
    (hlayout : Scans layout.toList []) :
    Reading.ofText (v.toJson ++ layout) = { root := v.node, sound := true } := by
  have htokens : Json.tokens (v.toJson ++ layout) = v.tokens := by
    have hscan := ((scans_print 0 v h).layout hlayout) []
    rw [Json.tokens, toJson, String.toList_append, String.toList_ofList]
    rw [List.append_nil] at hscan
    exact hscan.trans (by simp [tokensOf])
  have hnode := nodeOf_tokens [] v (2 * v.tokens.length + 2) h (by omega)
  rw [List.append_nil] at hnode
  rw [Reading.ofText, Reading.ofTokens, htokens, hnode]
  rfl

end Value

end CommandLauncher.Document
