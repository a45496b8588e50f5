/-
The requests of the web server (`web/http_server`).

Everything between the received pieces and what the routes look at: the bytes of a request,
its line, its header fields and its body, the decoded path, the session cookie, and the
members of a JSON body.
-/
import UhfGateway.Domain.Bytes
import Mathlib.Algebra.Order.Ring.Nat

namespace Uhf.Web

def kMaxHeaderBytes : ℕ := 16 * 1024
def kMaxBodyBytes : ℕ := 64 * 1024
def kMaxRequestBytes : ℕ := kMaxHeaderBytes + kMaxBodyBytes

/-! ### Texts -/

/-- The text before the first occurrence of a pattern, and the text behind it. -/
def cut (pattern : Bytes) : Bytes → Option (Bytes × Bytes)
  | [] => if pattern = [] then some ([], []) else none
  | c :: rest =>
    if pattern.isPrefixOf (c :: rest) then some ([], (c :: rest).drop pattern.length)
    else (cut pattern rest).map fun (before, after) => (c :: before, after)

section Cut

variable {pattern x y a z : Bytes}

theorem cut_parts (h : cut pattern x = some (a, z)) : x = a ++ (pattern ++ z) := by
  induction x generalizing a with
  | nil =>
    rw [cut] at h
    split at h
    · next hpattern =>
      obtain ⟨rfl, rfl⟩ := Prod.mk.inj (Option.some.inj h)
      rw [hpattern]
      rfl
    · cases h
  | cons c x ih =>
    rw [cut] at h
    split at h
    · next hstart =>
      obtain ⟨rfl, rfl⟩ := Prod.mk.inj (Option.some.inj h)
      exact (List.prefix_iff_eq_append.mp (List.isPrefixOf_iff_prefix.mp hstart)).symm
    · obtain ⟨⟨before, after⟩, hrest, hparts⟩ := Option.map_eq_some_iff.mp h
      obtain ⟨rfl, rfl⟩ := Prod.mk.inj hparts
      rw [List.cons_append, ← ih hrest]

theorem length_cut (h : cut pattern x = some (a, z)) :
    a.length + pattern.length + z.length = x.length := by
  rw [cut_parts h, List.length_append, List.length_append, Nat.add_assoc]

/-- What is found stays where it is when the text goes on. -/
theorem cut_append (h : cut pattern x = some (a, z)) (y : Bytes) :
    cut pattern (x ++ y) = some (a, z ++ y) := by
  induction x generalizing a with
  | nil =>
    rw [cut] at h
    split at h
    · next hpattern =>
      obtain ⟨rfl, rfl⟩ := Prod.mk.inj (Option.some.inj h)
      subst hpattern
      cases y <;> rfl
    · cases h
  | cons c x ih =>
    have hlength := length_cut h
    rw [cut] at h
    rw [List.cons_append, cut]
    split at h
    · next hstart =>
      obtain ⟨rfl, rfl⟩ := Prod.mk.inj (Option.some.inj h)
      rw [List.isPrefixOf_iff_prefix] at hstart
      have hlonger : pattern.isPrefixOf (c :: (x ++ y)) = true :=
        List.isPrefixOf_iff_prefix.mpr (hstart.trans (List.prefix_append (c :: x) y))
      rw [if_pos hlonger, ← List.cons_append, List.drop_append_of_le_length hstart.length_le]
    · next hstart =>
      obtain ⟨⟨before, after⟩, hrest, hparts⟩ := Option.map_eq_some_iff.mp h
      obtain ⟨rfl, rfl⟩ := Prod.mk.inj hparts
      -- the pattern is no longer than the text, so what comes behind does not make it match here
      rw [if_neg, ih hrest]
      · rfl
      · intro hlonger
        rw [List.isPrefixOf_iff_prefix] at hstart hlonger
        refine hstart (List.prefix_of_prefix_length_le hlonger (List.prefix_append (c :: x) y) ?_)
        rw [List.length_cons] at hlength
        omega

/-- It is found as soon as the text holds all of it. -/
theorem cut_of_append (h : cut pattern (x ++ y) = some (a, z))
    (hlength : a.length + pattern.length ≤ x.length) :
    cut pattern x = some (a, x.drop (a.length + pattern.length)) := by
  induction x generalizing a with
  | nil =>
    obtain ⟨ha, hpattern⟩ : a = [] ∧ pattern = [] := by
      rw [List.length_nil] at hlength
      exact ⟨List.eq_nil_of_length_eq_zero (by omega), List.eq_nil_of_length_eq_zero (by omega)⟩
    subst ha hpattern
    rfl
  | cons c x ih =>
    rw [List.cons_append, cut] at h
    rw [cut]
    split at h
    · next hstart =>
      obtain ⟨rfl, -⟩ := Prod.mk.inj (Option.some.inj h)
      rw [List.length_nil, Nat.zero_add] at hlength ⊢
      rw [List.isPrefixOf_iff_prefix, ← List.cons_append] at hstart
      rw [if_pos]
      exact List.isPrefixOf_iff_prefix.mpr
        (List.prefix_of_prefix_length_le hstart (List.prefix_append _ y) hlength)
    · next hstart =>
      obtain ⟨⟨before, after⟩, hrest, hparts⟩ := Option.map_eq_some_iff.mp h
      obtain ⟨rfl, rfl⟩ := Prod.mk.inj hparts
      rw [List.length_cons, List.length_cons] at hlength
      rw [if_neg, ih hrest (by omega)]
      · rw [List.length_cons, Nat.add_right_comm]
        rfl
      · intro hshort
        rw [List.isPrefixOf_iff_prefix] at hstart hshort
        exact hstart (hshort.trans (List.prefix_append (c :: x) y))

theorem cut_isSome_iff (h : cut pattern (x ++ y) = some (a, z)) :
    (cut pattern x).isSome = true ↔ a.length + pattern.length ≤ x.length := by
  constructor
  · intro hfound
    obtain ⟨⟨a', z'⟩, hcut⟩ := Option.isSome_iff_exists.mp hfound
    have hsame := (cut_append hcut y).symm.trans h
    obtain ⟨rfl, -⟩ := Prod.mk.inj (Option.some.inj hsame)
    have hlength := length_cut hcut
    omega
  · intro hlength
    rw [cut_of_append h hlength]
    rfl

/-- The pattern is found where a text holds it. -/
theorem exists_cut (pattern a z : Bytes) : ∃ parts, cut pattern (a ++ (pattern ++ z)) = some parts := by
  induction a with
  | nil =>
    rw [List.nil_append]
    cases htext : pattern ++ z with
    | nil => exact ⟨([], []), by rw [cut, if_pos (List.append_eq_nil_iff.mp htext).1]⟩
    | cons c rest =>
      rw [cut, if_pos]
      · exact ⟨_, rfl⟩
      · rw [← htext]
        exact List.isPrefixOf_iff_prefix.mpr (List.prefix_append pattern z)
  | cons c a ih =>
    obtain ⟨parts, hparts⟩ := ih
    rw [List.cons_append, cut]
    split
    · exact ⟨_, rfl⟩
    · exact ⟨_, by rw [hparts]; rfl⟩

theorem cut_none (h : cut pattern (x ++ y) = none) : cut pattern x = none := by
  cases hcut : cut pattern x with
  | none => rfl
  | some parts =>
    rw [cut_append hcut y] at h
    cases h

/-- A text without the first byte of the pattern does not hold its beginning. -/
theorem cut_skip {c : UInt8} {pattern before text : Bytes} (h : c ∉ before) :
    cut (c :: pattern) (before ++ text) =
      (cut (c :: pattern) text).map fun parts => (before ++ parts.1, parts.2) := by
  induction before with
  | nil =>
    rw [List.nil_append]
    exact Option.map_id'.symm
  | cons d before ih =>
    obtain ⟨hd, hbefore⟩ := not_or.mp (fun hmem => h (List.mem_cons.mpr hmem))
    have hother : (c :: pattern).isPrefixOf (d :: (before ++ text)) = false := by
      rw [List.isPrefixOf, beq_false_of_ne hd, Bool.false_and]
    rw [List.cons_append, cut, hother, if_neg Bool.false_ne_true, ih hbefore, Option.map_map]
    rfl

end Cut

def crlf : Bytes := [0x0D, 0x0A]

/-- The pieces of a text between its line ends. -/
def splitCrlf : Bytes → List Bytes
  | [] => [[]]
  | [c] => [[c]]
  | c :: d :: rest =>
    if c = 0x0D ∧ d = 0x0A then [] :: splitCrlf rest
    else
      match splitCrlf (d :: rest) with
      | [] => [[c]]
      | piece :: pieces => (c :: piece) :: pieces

def isDigit (c : UInt8) : Bool := '0'.toUInt8 ≤ c && c ≤ '9'.toUInt8

def hexValue (value : UInt8) : Option UInt8 :=
  if isDigit value then some (value - '0'.toUInt8)
  else if 'a'.toUInt8 ≤ value && value ≤ 'f'.toUInt8 then some (value - 'a'.toUInt8 + 10)
  else if 'A'.toUInt8 ≤ value && value ≤ 'F'.toUInt8 then some (value - 'A'.toUInt8 + 10)
  else none

def lowerAscii (value : Bytes) : Bytes :=
  value.map fun c => if 'A'.toUInt8 ≤ c && c ≤ 'Z'.toUInt8 then c - 'A'.toUInt8 + 'a'.toUInt8 else c

def isOws (c : UInt8) : Bool := c = ' '.toUInt8 || c = '\t'.toUInt8

def trimOws (value : Bytes) : Bytes :=
  ((value.dropWhile isOws).reverse.dropWhile isOws).reverse

/-- A decimal number below 2^64. -/
def parseDecimal (value : Bytes) : Option ℕ :=
  if value = [] then none
  else
    value.foldlM (fun result c =>
      let digit := (c - '0'.toUInt8).toNat
      if !isDigit c then none
      else if (2 ^ 64 - 1 - digit) / 10 < result then none
      else some (result * 10 + digit)) 0

/-- The quoted version of an `If-Match` field. -/
def parseIfMatch (value : Bytes) : Option ℕ :=
  if value.length < 3 ∨ value.head? ≠ some 0x22 ∨ value.getLast? ≠ some 0x22 then none
  else (parseDecimal value.tail.dropLast).filter (· ≠ 0)

/-- The list in a header field names the token. -/
def headerHasToken (value token : Bytes) : Bool :=
  (value.splitOn ','.toUInt8).any fun item => lowerAscii (trimOws item) = lowerAscii token

def base64Value (value : UInt8) : Option UInt8 :=
  if 'A'.toUInt8 ≤ value && value ≤ 'Z'.toUInt8 then some (value - 'A'.toUInt8)
  else if 'a'.toUInt8 ≤ value && value ≤ 'z'.toUInt8 then some (value - 'a'.toUInt8 + 26)
  else if isDigit value then some (value - '0'.toUInt8 + 52)
  else if value = '+'.toUInt8 then some 62
  else if value = '/'.toUInt8 then some 63
  else none

/-- Sixteen bytes in base 64: five whole groups, and two characters that leave four bits. -/
def validWebsocketKey (value : Bytes) : Bool :=
  value.length = 24 && value.drop 22 = ascii "==" &&
    (value.take 21).all (fun c => (base64Value c).isSome) &&
    (value.drop 21 |>.take 1).all fun c => (base64Value c).any (· % 16 = 0)

/-! ### Reading a request -/

structure ParsedRequest where
  method : Bytes
  target : Bytes
  version : Bytes
  /-- The newest field of a name is in front. -/
  headers : List (Bytes × Bytes)
  body : Bytes
  deriving DecidableEq

/-- The header fields so far, with the content length once it has been seen. -/
structure HeaderScan where
  headers : List (Bytes × Bytes) := []
  contentLength : Option ℕ := none

def headerLine (scan : HeaderScan) (line : Bytes) : Option HeaderScan := do
  let (name, value) ← cut [':'.toUInt8] line
  let name := lowerAscii (trimOws name)
  let value := trimOws value
  if name = [] then none
  else if name = ascii "transfer-encoding" ∧ value ≠ [] then none
  else if name = ascii "content-length" then
    let parsedLength ← parseDecimal value
    if kMaxBodyBytes < parsedLength then none
    else if scan.contentLength.any (· ≠ parsedLength) then none
    else some ⟨(name, value) :: scan.headers, some parsedLength⟩
  else some { scan with headers := (name, value) :: scan.headers }

/-- The header fields of a request and its content length.  A line end behind the last
field starts no new one. -/
def parseHeaderBlock (headerBlock : Bytes) : Option (List (Bytes × Bytes) × ℕ) := do
  let (_, rest) ← cut crlf headerBlock
  let pieces := splitCrlf rest
  let lines := if pieces.getLast? = some [] then pieces.dropLast else pieces
  let scan ← lines.foldlM headerLine {}
  some (scan.headers, scan.contentLength.getD 0)

/-- The first loop of `read_request`.  Each piece is what one call has received before the
deadline; an empty one is a call that has failed. -/
def readHeader (request : Bytes) : List Bytes → Option (Bytes × List Bytes)
  | [] => if (cut (crlf ++ crlf) request).isSome then some (request, []) else none
  | piece :: received =>
    if (cut (crlf ++ crlf) request).isSome then some (request, piece :: received)
    else if piece = [] then none
    else if kMaxRequestBytes - request.length < piece.length then none
    else if kMaxHeaderBytes < request.length + piece.length then none
    else readHeader (request ++ piece) received

/-- Its second loop. -/
def readBody (requiredSize : ℕ) (request : Bytes) : List Bytes → Option Bytes
  | [] => if requiredSize ≤ request.length then some request else none
  | piece :: received =>
    if requiredSize ≤ request.length then some request
    else if piece = [] then none
    else if kMaxRequestBytes - request.length < piece.length then none
    else readBody requiredSize (request ++ piece) received

def readRequest (received : List Bytes) : Option Bytes := do
  let (request, received) ← readHeader [] received
  let (headerBlock, _) ← cut (crlf ++ crlf) request
  if kMaxHeaderBytes < headerBlock.length then none
  else
    let (_, contentLength) ← parseHeaderBlock headerBlock
    let bodyStart := headerBlock.length + 4
    if kMaxRequestBytes - bodyStart < contentLength then none
    else readBody (bodyStart + contentLength) request received

/-- The characters that separate the words of the request line. -/
def isSpace (c : UInt8) : Bool := c = 0x20 || 0x09 ≤ c && c ≤ 0x0D

def parseRequest (request : Bytes) : Option ParsedRequest := do
  let (headerBlock, rest) ← cut (crlf ++ crlf) request
  let (line, _) ← cut crlf request
  match (line.splitOnP isSpace).filter (· ≠ []) with
  | [method, target, version] =>
    let (headers, contentLength) ← parseHeaderBlock headerBlock
    if rest.length < contentLength then none
    else some ⟨method, target, version, headers, rest.take contentLength⟩
  | _ => none

def ParsedRequest.headerValue (request : ParsedRequest) (name : String) : Bytes :=
  (request.headers.lookup (lowerAscii (ascii name))).getD []

/-! ### The path -/

def percentDecode : Bytes → Option Bytes
  | [] => some []
  | c :: rest =>
    if c ≠ '%'.toUInt8 then (percentDecode rest).map (c :: ·)
    else
      match rest with
      | high :: low :: rest => do
        let high ← hexValue high
        let low ← hexValue low
        (percentDecode rest).map (((high <<< 4) ||| low) :: ·)
      | _ => none

/-- The segments of a path behind its first character. -/
def segments (path : Bytes) : List Bytes := (path.drop 1).splitOn '/'.toUInt8

def decodePath (target : Bytes) : Option Bytes := do
  let encodedPath := target.takeWhile (· ≠ '?'.toUInt8)
  if encodedPath.head? ≠ some '/'.toUInt8 then none
  else
    let path ← percentDecode encodedPath
    if 0x5C ∈ path ∨ 0 ∈ path then none
    else if ascii ".." ∈ segments path then none
    else if path = ascii "/" then some (ascii "/overview.html")
    else some path

/-! ### Cookies -/

/-- The value of a cookie with this name. -/
def cookieValue (name : Bytes) (item : Bytes) : Option Bytes := do
  let (key, value) ← cut ['='.toUInt8] (trimOws item)
  if trimOws key = name then some (trimOws value) else none

/-- The first cookie of the name decides, and one that is too long is no token. -/
def sessionCookie (request : ParsedRequest) : Bytes :=
  let items := (request.headerValue "cookie").splitOn ';'.toUInt8
  match items.findSome? (cookieValue (ascii "uhf_session")) with
  | some value => if value.length ≤ 128 then value else []
  | none => []

/-! ### JSON bodies -/

def isJsonSpace (c : UInt8) : Bool :=
  c = ' '.toUInt8 || c = '\t'.toUInt8 || c = '\r'.toUInt8 || c = '\n'.toUInt8

def appendUtf8 (value : Bytes) (codePoint : ℕ) : Bytes :=
  let tail (shift : ℕ) := UInt8.ofNat (0x80 ||| ((codePoint >>> shift) &&& 0x3F))
  if codePoint ≤ 0x7F then value ++ [UInt8.ofNat codePoint]
  else if codePoint ≤ 0x7FF then value ++ [UInt8.ofNat (0xC0 ||| (codePoint >>> 6)), tail 0]
  else if codePoint ≤ 0xFFFF then
    value ++ [UInt8.ofNat (0xE0 ||| (codePoint >>> 12)), tail 6, tail 0]
  else value ++ [UInt8.ofNat (0xF0 ||| (codePoint >>> 18)), tail 12, tail 6, tail 0]

/-- The character a simple escape stands for. -/
def simpleEscape (escaped : UInt8) : Option UInt8 :=
  if escaped = 0x22 ∨ escaped = 0x5C ∨ escaped = '/'.toUInt8 then some escaped
  else if escaped = 'b'.toUInt8 then some 0x08
  else if escaped = 'f'.toUInt8 then some 0x0C
  else if escaped = 'n'.toUInt8 then some 0x0A
  else if escaped = 'r'.toUInt8 then some 0x0D
  else if escaped = 't'.toUInt8 then some 0x09
  else none

/-- The four hexadecimal digits of an escape. -/
def hexCode (digits : Bytes) : Option ℕ := do
  let digits ← digits.mapM hexValue
  some (digits.foldl (fun code digit => code * 16 + digit.toNat) 0)

/-- The rest of a string behind its opening quote. -/
def jsonStringBody (maxBytes : ℕ) (value : Bytes) : Bytes → Option Bytes
  | [] => none
  | c :: rest =>
    if c = 0x22 then if value.length ≤ maxBytes then some value else none
    else if c ≠ 0x5C then
      if c < 0x20 then none
      else if maxBytes < value.length + 1 then none
      else jsonStringBody maxBytes (value ++ [c]) rest
    else
      match rest with
      | [] => none
      | escaped :: rest =>
        if escaped = 'u'.toUInt8 then
          match rest with
          | d₁ :: d₂ :: d₃ :: d₄ :: rest =>
            match hexCode [d₁, d₂, d₃, d₄] with
            | none => none
            | some codePoint =>
              if 0xD800 ≤ codePoint ∧ codePoint ≤ 0xDFFF then none
              else if maxBytes < (appendUtf8 value codePoint).length then none
              else jsonStringBody maxBytes (appendUtf8 value codePoint) rest
          | _ => none
        else
          match simpleEscape escaped with
          | none => none
          | some character =>
            if maxBytes < value.length + 1 then none
            else jsonStringBody maxBytes (value ++ [character]) rest

/-- The text of a JSON body behind the first occurrence of a key, its colon and the first
character of its value, if that is the expected one. -/
def jsonMember (json : Bytes) (key : String) (opening : UInt8) : Option Bytes := do
  let (_, rest) ← cut ([0x22] ++ ascii key ++ [0x22]) json
  match rest.dropWhile isJsonSpace with
  | c :: rest =>
    if c ≠ ':'.toUInt8 then none
    else
      match rest.dropWhile isJsonSpace with
      | c :: rest => if c = opening then some rest else none
      | [] => none
  | [] => none

def jsonStringField (json : Bytes) (key : String) (maxBytes : ℕ) : Option Bytes := do
  jsonStringBody maxBytes [] (← jsonMember json key 0x22)

/-- The rest of an object: `depth` braces are open. -/
def jsonObjectBody (depth : ℕ) (quoted escaped : Bool) (value : Bytes) : Bytes → Option Bytes
  | [] => none
  | c :: rest =>
    if quoted then
      if escaped then jsonObjectBody depth true false (value ++ [c]) rest
      else jsonObjectBody depth (c ≠ 0x22) (c = 0x5C) (value ++ [c]) rest
    else if c = 0x22 then jsonObjectBody depth true false (value ++ [c]) rest
    else if c = 0x7B then jsonObjectBody (depth + 1) false false (value ++ [c]) rest
    else if c = 0x7D then
      if depth = 1 then some (value ++ [c]) else jsonObjectBody (depth - 1) false false (value ++ [c]) rest
    else jsonObjectBody depth false false (value ++ [c]) rest

def jsonObjectField (json : Bytes) (key : String) : Option Bytes := do
  jsonObjectBody 1 false false [0x7B] (← jsonMember json key 0x7B)

end Uhf.Web
