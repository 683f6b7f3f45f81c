import ReactorCloud.Functions.Delivery
import ReactorCloud.Posix.TextFile

/-!
This module contains how the response of a function is read from its socket and passed on to the caller. The
conversion of texts to lower case is a parameter.
-/

namespace Reactor.Functions.Response

open Posix (Text)
open Rust (Uuid HashMap)
open Rust.Lossy (fromUtf8Lossy)
open Rust.Str (bytes trimStart trimEnd isWhitespace)
open Http.Wire (Bytes isToken isFieldByte lowerByte unlines numeral valuesOf Response Framing)

/-! ## Reading -/

/--
`buf.windows(4).position(|w| w == b"\r\n\r\n")`
-/
def position : Bytes → Option Nat
  | [] => none
  | b :: bs => if [13, 10, 13, 10].isPrefixOf (b :: bs) then some 0 else (position bs).map (· + 1)

/--
Read until the end of the headers is in the buffer. The reads are over when the connection is closed.
-/
def readHead (buf : Bytes) : List Bytes → Except FunctionsError (Bytes × Nat × List Bytes)
  | [] => .error (.runtimeError "incomplete response headers")
  | chunk :: reads =>
    if chunk = [] then
      .error (.runtimeError "incomplete response headers")
    else
      match position (buf ++ chunk) with
      | some pos => .ok (buf ++ chunk, pos + 4, reads)
      | none =>
        if (buf ++ chunk).length > 65536 then
          .error (.runtimeError "response headers too large")
        else
          readHead (buf ++ chunk) reads

def readUntil (len : Nat) (body : Bytes) : List Bytes → Bytes
  | [] => body
  | chunk :: reads => if body.length < len ∧ chunk ≠ [] then readUntil len (body ++ chunk) reads else body

def readToEnd (body : Bytes) : List Bytes → Bytes
  | [] => body
  | chunk :: reads => if chunk = [] then body else readToEnd (body ++ chunk) reads

/--
`s.splitn(n, ' ')`
-/
def splitn : Nat → Text → List Text
  | 0, _ => []
  | 1, s => [s]
  | n + 2, s =>
    match s.dropWhile (· ≠ ' ') with
    | [] => [s]
    | _ :: rest => s.takeWhile (· ≠ ' ') :: splitn (n + 1) rest

def parseStatus (statusLine : Text) : Nat :=
  (((splitn 3 statusLine)[1]?.bind Rust.parseU64).filter (· < 2 ^ 16)).getD 500

def trimText (s : Text) : Text :=
  trimEnd (trimStart s)

variable (toLowercase : Text → Text)

def parseHeader (line : Text) : Option (Σ _ : String, String) :=
  match line.dropWhile (· ≠ ':') with
  | [] => none
  | _ :: value =>
    some ⟨String.ofList (toLowercase (trimText (line.takeWhile (· ≠ ':')))), String.ofList (trimText value)⟩

def parseHeaders (lines : List Text) : HashMap String :=
  HashMap.extend ∅ ((lines.takeWhile (· ≠ [])).filterMap (parseHeader toLowercase))

/--
The part of `invoke_over_socket` after the request is written.
-/
def readResponse (reads : List Bytes) : Except FunctionsError OutgoingResponse := do
  let (buf, headersEnd, reads) ← readHead [] reads
  match Posix.lines (fromUtf8Lossy (buf.take headersEnd)) with
  | [] => .error (.runtimeError "missing status line")
  | statusLine :: lines =>
    let headers := parseHeaders toLowercase lines
    let contentLength := (headers.lookup "content-length").bind (fun s => Rust.parseU64 s.toList)
    let isChunked := (headers.lookup "transfer-encoding").any (fun v => decide ("chunked".toList <:+: v.toList))
    let start := buf.drop headersEnd
    let body := match contentLength with
      | some len => (readUntil len start reads).take len
      | none => if isChunked then start else readToEnd start reads
    return { status := parseStatus statusLine, headers := headers.entries.map (fun e => (e.1, e.2)), body }

/-! ## Passing on -/

structure Reply where
  status : Nat
  headers : List (Bytes × Bytes)
  body : Bytes

def headerName (name : String) : Option Bytes :=
  if isToken (bytes name) then some ((bytes name).map lowerByte) else none

def headerValue (value : String) : Option Bytes :=
  if (bytes value).all isFieldByte then some (bytes value) else none

def header (h : String × String) : Option (Bytes × Bytes) := do
  let name ← headerName h.1
  let value ← headerValue h.2
  return (name, value)

/--
What the platform says of an invocation.
-/
structure Platform where
  requestId : Uuid
  functionName : String
  coldStart : Bool
  durationMs : Nat

def Platform.headers (platform : Platform) : List (String × String) :=
  [
    ("x-request-id", platform.requestId.hyphenated),
    ("x-reactor-function", platform.functionName),
    ("x-reactor-cold-start", if platform.coldStart then "true" else "false"),
    ("x-reactor-duration-ms", Nat.repr platform.durationMs)
  ]

def buildResponse (platform : Platform) (response : OutgoingResponse) : Reply :=
  match (response.headers ++ platform.headers).mapM header with
  | some headers =>
    {
      status := if 100 ≤ response.status ∧ response.status < 1000 then response.status else 200
      headers
      body := response.body
    }
  | none => { status := 500, headers := [], body := bytes "failed to build response" }

def respond (platform : Platform) (reads : List Bytes) : Except FunctionsError Reply :=
  (readResponse toLowercase reads).map (buildResponse platform)

/-! ## What the caller should get -/

/--
The names that the fields `Connection` list.
-/
def nominated (r : Response) : List Bytes :=
  (valuesOf (bytes "connection") r.pairs).flatMap fun value =>
    (value.splitOn 44).map (fun option => (Http.Wire.trimOws option).map lowerByte)

local instance lawfulBEq_bytes : LawfulBEq Bytes := inferInstance

/--
The field is meant for the caller and not for the next hop.
-/
def endToEnd (r : Response) (p : Bytes × Bytes) : Bool :=
  p.1 ∉ hopByHop.map bytes ∧ p.1 ∉ nominated r

/--
The reply is the response with the headers of the platform. Nothing is said of the fields for the next hop.
-/
structure Unchanged (platform : Platform) (r : Response) (reply : Reply) : Prop where
  status : reply.status = r.status
  headers : ∃ hops, (∀ p ∈ hops, endToEnd r p = false)
    ∧ reply.headers.Perm (hops ++ r.pairs.filter (endToEnd r) ++ platform.headers.map headerPair)
  body : reply.body = r.body

/--
A response that is there comes back unchanged, and one that ends early is an error.
-/
structure ComesBack (platform : Platform) (r : Response) (reads : List Bytes) : Prop where
  complete : reads.flatten = r.wire → ∃ reply, respond toLowercase platform reads = .ok reply ∧ Unchanged platform r reply
  early : reads.flatten <+: r.wire → reads.flatten.length < r.least
    → ∃ e, respond toLowercase platform reads = .error e

/--
The bytes of `reads` up to the read that brings the `n`th byte.
-/
def arrived (n : Nat) (buf : Bytes) : List Bytes → Bytes
  | [] => buf
  | chunk :: reads => if n ≤ (buf ++ chunk).length then buf ++ chunk else arrived n (buf ++ chunk) reads

/--
The bytes are text without white space at its ends.
-/
def IsTrimmedText (value : Bytes) : Prop :=
  ∃ text : String, bytes text = value ∧ Rust.Str.Starts text.toList ∧ Rust.Str.Ends text.toList

/--
The responses that come back: no name twice, values that are text, and a body in chunks only if what arrives with the
head looks like the body it stands for.
-/
structure Kept (platform : Platform) (r : Response) (reads : List Bytes) : Prop where
  names : ((r.pairs.filter (endToEnd r)).map Prod.fst).Nodup
  values : ∀ p ∈ r.pairs, endToEnd r p = true → IsTrimmedText p.2
  function : ∀ b ∈ bytes platform.functionName, isFieldByte b = true
  chunked : ∀ chunks last trailers, r.framing = .chunked chunks last trailers
    → (Http.Wire.transferEncoding, Http.Wire.chunkedCoding) ∈ r.pairs
      ∧ (arrived r.head.length [] reads).drop r.head.length = r.body

/--
The condition for all deliveries, of which those that end early have to end within the head.
-/
structure Spared (platform : Platform) (r : Response) (reads : List Bytes) : Prop where
  complete : reads.flatten = r.wire → Kept platform r reads
  early : reads.flatten <+: r.wire → reads.flatten.length < r.least → reads.flatten.length < r.head.length

/-! ## The end of the head -/

theorem position_cons_of_ne {b : UInt8} (hb : b ≠ 13) (bs : Bytes) : position (b :: bs) = (position bs).map (· + 1) := by
  rw [position, if_neg]
  simp [List.isPrefixOf, Ne.symm hb]

theorem length_of_position {bs : Bytes} {n : Nat} (h : position bs = some n) : n + 4 ≤ bs.length := by
  induction bs generalizing n with
  | nil => cases h
  | cons b bs ih =>
    rw [position] at h
    split at h
    next hstart =>
      cases h
      have := (List.isPrefixOf_iff_prefix.mp hstart).length_le
      simpa using this
    next =>
      rw [Option.map_eq_some_iff] at h
      obtain ⟨m, hm, rfl⟩ := h
      have := ih hm
      rw [List.length_cons]
      omega

theorem position_append {bs : Bytes} {n : Nat} (h : position bs = some n) (more : Bytes)
    : position (bs ++ more) = some n := by
  induction bs generalizing n with
  | nil => cases h
  | cons b bs ih =>
    rw [position] at h
    rw [List.cons_append, position]
    split at h
    next hstart =>
      cases h
      rw [if_pos]
      rw [List.isPrefixOf_iff_prefix] at hstart ⊢
      exact hstart.trans (List.prefix_append (b :: bs) more)
    next hstart =>
      rw [Option.map_eq_some_iff] at h
      obtain ⟨m, hm, rfl⟩ := h
      have hlen := length_of_position hm
      rw [if_neg, ih hm]
      . rfl
      . intro hlong
        apply hstart
        rw [List.isPrefixOf_iff_prefix] at hlong ⊢
        apply List.prefix_of_prefix_length_le hlong (List.prefix_append (b :: bs) more)
        simp only [List.length_cons, List.length_nil]
        omega

theorem position_line {line : Bytes} (h : 13 ∉ line) (s : Bytes)
    : position (line ++ 13 :: 10 :: s) = (position (13 :: 10 :: s)).map (· + line.length) := by
  induction line with
  | nil => simp
  | cons b line ih =>
    rw [List.mem_cons, not_or] at h
    rw [List.cons_append, position_cons_of_ne (Ne.symm h.1), ih h.2, Option.map_map]
    rfl

theorem position_break {s : Bytes} (h : ∀ b ∈ s.head?, b ≠ 13) : position (13 :: 10 :: s) = (position s).map (· + 2) := by
  rw [position, if_neg, position_cons_of_ne (by decide), Option.map_map]
  . rfl
  . cases s with
    | nil => decide
    | cons b s =>
      have := h b rfl
      simp [List.isPrefixOf, Ne.symm this]

/--
The first empty line ends the head.
-/
theorem position_unlines {lines : List Bytes} (hne : lines ≠ []) (h : ∀ l ∈ lines, l ≠ [] ∧ 13 ∉ l) (rest : Bytes)
    : position (unlines lines ++ 13 :: 10 :: rest) = some ((unlines lines).length - 2) := by
  induction lines with
  | nil => contradiction
  | cons line lines ih =>
    have hline := (h line List.mem_cons_self).2
    rw [Http.Wire.unlines_cons, List.append_assoc, List.cons_append, List.cons_append, position_line hline]
    cases lines with
    | nil => simp [position, unlines]
    | cons next lines =>
      have hmore : ∀ l ∈ next :: lines, l ≠ [] ∧ 13 ∉ l := fun l hl => h l (List.mem_cons_of_mem _ hl)
      obtain ⟨hnil, hnext⟩ := hmore next List.mem_cons_self
      rw [position_break, ih (List.cons_ne_nil _ _) hmore, Option.map_some, Option.map_some]
      . rw [List.length_append, List.length_cons, List.length_cons]
        have := Http.Wire.length_unlines (next :: lines)
        rw [Http.Wire.unlines_cons, List.length_append, List.length_cons, List.length_cons]
        congr 1
        omega
      . cases next with
        | nil => contradiction
        | cons b next =>
          rw [Http.Wire.unlines_cons]
          rintro c ⟨rfl⟩
          rintro rfl
          exact hnext List.mem_cons_self

theorem position_head {r : Response} (h : r.WellFormed) (rest : Bytes)
    : position (r.head ++ rest) = some (r.head.length - 4) := by
  unfold Response.head
  rw [List.append_assoc]
  have := position_unlines (List.cons_ne_nil _ _) (fun l hl => h.lines hl (.inr rfl)) rest
  rw [List.length_append]
  exact this

theorem four_le_head {r : Response} (h : r.WellFormed) : r.head.length - 4 + 4 = r.head.length := by
  have hpos := position_head h []
  rw [List.append_nil] at hpos
  have := length_of_position hpos
  omega

/--
Nothing ends the headers before the head is there.
-/
theorem position_of_lt {r : Response} (h : r.WellFormed) {buf more rest : Bytes} (heq : buf ++ more = r.head ++ rest)
    (hlt : buf.length < r.head.length) : position buf = none := by
  rw [Option.eq_none_iff_forall_ne_some]
  intro n hn
  have hlong := position_append hn more
  rw [heq, position_head h, Option.some.injEq] at hlong
  have := length_of_position hn
  have := four_le_head h
  omega

/--
The head, and what has arrived behind it.
-/
theorem readHead_of_head {r : Response} (h : r.WellFormed) (hlen : r.head.length ≤ 65536) {buf : Bytes}
    {reads : List Bytes} (hnil : ∀ c ∈ reads, c ≠ []) (hbuf : buf.length < r.head.length)
    (hfront : r.head <+: buf ++ reads.flatten)
    : ∃ reads', readHead buf reads = .ok (arrived r.head.length buf reads, r.head.length, reads')
      ∧ (∀ c ∈ reads', c ≠ []) ∧ arrived r.head.length buf reads ++ reads'.flatten = buf ++ reads.flatten
      ∧ r.head <+: arrived r.head.length buf reads := by
  induction reads generalizing buf with
  | nil =>
    have := hfront.length_le
    simp only [List.flatten_nil, List.append_nil] at this
    omega
  | cons chunk reads ih =>
    have hmore := fun c hc => hnil c (List.mem_cons_of_mem _ hc)
    rw [List.flatten_cons, ← List.append_assoc] at hfront ⊢
    rw [readHead, if_neg (hnil chunk List.mem_cons_self), arrived]
    by_cases hthere : r.head.length ≤ (buf ++ chunk).length
    . have hwhole := List.prefix_of_prefix_length_le hfront (List.prefix_append (buf ++ chunk) reads.flatten) hthere
      obtain ⟨rest, hrest⟩ := hwhole
      have hpos : position (buf ++ chunk) = some (r.head.length - 4) := by
        rw [← hrest]
        apply position_head h
      rw [hpos, if_pos hthere]
      dsimp only
      rw [four_le_head h]
      exact ⟨reads, rfl, hmore, rfl, ⟨rest, hrest⟩⟩
    . obtain ⟨rest, hrest⟩ := hfront
      have hlt := Nat.lt_of_not_le hthere
      rw [position_of_lt h hrest.symm hlt, if_neg hthere]
      dsimp only
      rw [if_neg (by omega)]
      apply ih hmore hlt
      exact ⟨rest, hrest⟩

/--
Without the whole head there is an error.
-/
theorem readHead_of_lt {r : Response} (h : r.WellFormed) {buf : Bytes} {reads : List Bytes}
    (hfront : buf ++ reads.flatten <+: r.head) (hlen : (buf ++ reads.flatten).length < r.head.length)
    : ∃ e, readHead buf reads = .error e := by
  induction reads generalizing buf with
  | nil => exact ⟨_, rfl⟩
  | cons chunk reads ih =>
    rw [List.flatten_cons, ← List.append_assoc] at hfront hlen
    rw [readHead]
    split
    . exact ⟨_, rfl⟩
    . obtain ⟨rest, hrest⟩ := hfront
      have heq : (buf ++ chunk) ++ (reads.flatten ++ rest) = r.head ++ [] := by
        rw [← List.append_assoc, hrest, List.append_nil]
      rw [position_of_lt h heq]
      . dsimp only
        split
        . exact ⟨_, rfl⟩
        . exact ih ⟨rest, hrest⟩ hlen
      . rw [List.length_append] at hlen
        omega

/-! ## The body -/

theorem take_readUntil (len : Nat) {reads : List Bytes} (hnil : ∀ c ∈ reads, c ≠ []) (body : Bytes)
    : (readUntil len body reads).take len = (body ++ reads.flatten).take len := by
  induction reads generalizing body with
  | nil => rw [readUntil, List.flatten_nil, List.append_nil]
  | cons chunk reads ih =>
    rw [readUntil, List.flatten_cons]
    split
    . rw [ih (fun c hc => hnil c (List.mem_cons_of_mem _ hc)), List.append_assoc]
    next hstop =>
      have hlen : len ≤ body.length := by
        have := hnil chunk List.mem_cons_self
        by_contra hlt
        exact hstop ⟨by omega, this⟩
      rw [List.take_append_of_le_length hlen]

theorem readToEnd_eq {reads : List Bytes} (hnil : ∀ c ∈ reads, c ≠ []) (body : Bytes)
    : readToEnd body reads = body ++ reads.flatten := by
  induction reads generalizing body with
  | nil => rw [readToEnd, List.flatten_nil, List.append_nil]
  | cons chunk reads ih =>
    rw [readToEnd, if_neg (hnil chunk List.mem_cons_self), ih (fun c hc => hnil c (List.mem_cons_of_mem _ hc)),
      List.flatten_cons, List.append_assoc]

/-! ## The text of the head -/

/--
ASCII bytes as text.
-/
def chars (bs : Bytes) : Text :=
  bs.map (fun b => Char.ofNat b.toNat)

theorem fromUtf8Lossy_trailing {after : Bytes} (h : ∀ b ∈ after, b < 0x80) (value : Bytes)
    : fromUtf8Lossy (value ++ after) = fromUtf8Lossy value ++ chars after := by
  cases after with
  | nil =>
    rw [List.append_nil]
    exact (List.append_nil _).symm
  | cons b after =>
    have hafter := Rust.Lossy.fromUtf8Lossy_append (fun x hx => h x (List.mem_cons_of_mem _ hx)) []
    rw [List.append_nil, Rust.Lossy.fromUtf8Lossy_nil, List.append_nil] at hafter
    rw [Rust.Lossy.fromUtf8Lossy_cut (h b List.mem_cons_self), hafter]
    rfl

theorem notMem_fromUtf8Lossy {bs : Bytes} (h : 10 ∉ bs) : '\n' ∉ fromUtf8Lossy bs := by
  intro hmem
  obtain ⟨b, hb, heq⟩ := Rust.Lossy.mem_fromUtf8Lossy hmem (by decide)
  have : b = 10 := UInt8.toNat_inj.mp heq
  rw [this] at hb
  exact h hb

theorem lines_fromUtf8Lossy {ls : List Bytes} (h : ∀ l ∈ ls, 10 ∉ l)
    : Posix.lines (fromUtf8Lossy (unlines ls ++ [13, 10])) = ls.map fromUtf8Lossy ++ [[]] := by
  induction ls with
  | nil =>
    have : fromUtf8Lossy [13, 10] = ['\r', '\n'] := by
      rw [Rust.Lossy.fromUtf8Lossy_cons (by decide), Rust.Lossy.fromUtf8Lossy_cons (by decide),
        Rust.Lossy.fromUtf8Lossy_nil]
      rfl
    rw [unlines, List.flatMap_nil, List.nil_append, this]
    rfl
  | cons l ls ih =>
    have hl := h l List.mem_cons_self
    have hbreak : unlines (l :: ls) ++ [13, 10] = (l ++ [13]) ++ 10 :: (unlines ls ++ [13, 10]) := by
      rw [Http.Wire.unlines_cons]
      simp
    have hline : fromUtf8Lossy (l ++ [13]) = fromUtf8Lossy l ++ ['\r'] := by
      apply fromUtf8Lossy_trailing
      exact List.all_iff_forall_prop.mp (by decide)
    have hfeed : '\n' ∉ fromUtf8Lossy l ++ ['\r'] := by
      rw [List.mem_append, not_or]
      exact ⟨notMem_fromUtf8Lossy hl, by decide⟩
    have hstrip : Posix.stripReturn (fromUtf8Lossy l ++ ['\r']) = fromUtf8Lossy l := by
      unfold Posix.stripReturn
      rw [List.getLast?_concat, if_pos rfl, List.dropLast_concat]
    rw [hbreak, Rust.Lossy.fromUtf8Lossy_feed, hline, Posix.lines_feed hfeed, hstrip,
      ih (fun l hl => h l (List.mem_cons_of_mem _ hl))]
    rfl

theorem trimText_between {before after : Text} (hbefore : Rust.Str.Blank before) (hafter : Rust.Str.Blank after)
    (s : Text) : trimText (before ++ (s ++ after)) = trimText s := by
  unfold trimText trimStart trimEnd
  rw [List.dropWhile_append_of_pos hbefore, List.dropWhile_append]
  split
  next hempty =>
    rw [List.isEmpty_iff] at hempty
    rw [hempty, List.dropWhile_eq_nil_iff.mpr hafter]
  next =>
    rw [List.reverse_append, List.dropWhile_append_of_pos]
    intro c hc
    exact hafter c (List.mem_reverse.mp hc)

theorem trimText_solid {s : Text} (h : ∀ c ∈ s, isWhitespace c = false) : trimText s = s := by
  have hdrop {t : Text} (ht : ∀ c ∈ t, isWhitespace c = false) : t.dropWhile isWhitespace = t := by
    cases t with
    | nil => rfl
    | cons c t => rw [List.dropWhile_cons_of_neg (by rw [ht c List.mem_cons_self]; decide)]
  unfold trimText trimStart trimEnd
  rw [hdrop h, hdrop, List.reverse_reverse]
  intro c hc
  exact h c (List.mem_reverse.mp hc)

theorem toNat_isTchar {b : UInt8} (h : Http.Wire.isTchar b = true) : 33 ≤ b.toNat ∧ b.toNat < 127 := by
  simp only [Http.Wire.isTchar, Http.Wire.isAlpha, Http.Wire.isDigit, Bool.or_eq_true, Bool.and_eq_true,
    decide_eq_true_eq, UInt8.le_iff_toNat_le] at h
  rcases h with (h | h) | h
  . have h : (65 ≤ b.toNat ∧ b.toNat ≤ 90) ∨ (97 ≤ b.toNat ∧ b.toNat ≤ 122) := h
    omega
  . have h : 48 ≤ b.toNat ∧ b.toNat ≤ 57 := h
    omega
  . rw [List.contains_iff_mem] at h
    simp only [List.mem_cons, List.not_mem_nil, or_false] at h
    rcases h with rfl | rfl | rfl | rfl | rfl | rfl | rfl | rfl | rfl | rfl | rfl | rfl | rfl | rfl | rfl <;> decide

theorem toNat_char {b : UInt8} (h : b.toNat < 128) : (Char.ofNat b.toNat).toNat = b.toNat := by
  apply Rust.Lossy.toNat_ofNat
  omega

theorem not_isWhitespace {b : UInt8} (h : 33 ≤ b.toNat ∧ b.toNat < 127)
    : isWhitespace (Char.ofNat b.toNat) = false := by
  unfold isWhitespace
  rw [toNat_char (by omega)]
  simp only [Bool.or_eq_false_iff, Bool.and_eq_false_iff, decide_eq_false_iff_not, beq_eq_false_iff_ne]
  omega

theorem isWhitespace_isOws {b : UInt8} (h : Http.Wire.isOws b = true) : isWhitespace (Char.ofNat b.toNat) = true := by
  simp only [Http.Wire.isOws, Bool.or_eq_true, beq_iff_eq] at h
  rcases h with rfl | rfl <;> decide

theorem toLower_char {b : UInt8} (h : b.toNat < 128)
    : (Char.ofNat b.toNat).toLower = Char.ofNat (lowerByte b).toNat := by
  have hall : ∀ n < 128, (Char.ofNat n).toLower = Char.ofNat (lowerByte (UInt8.ofNat n)).toNat := by decide
  have := hall b.toNat h
  rw [UInt8.ofNat_toNat] at this
  exact this

theorem bytes_chars {bs : Bytes} (h : ∀ b ∈ bs, b.toNat < 128) : bytes (String.ofList (chars bs)) = bs :=
  Rust.Str.bytes_ascii h

theorem lowerByte_lt {b : UInt8} (h : b.toNat < 128) : (lowerByte b).toNat < 128 := by
  unfold lowerByte
  split
  next hup =>
    simp only [Bool.and_eq_true, decide_eq_true_eq, UInt8.le_iff_toNat_le] at hup
    have hup : 65 ≤ b.toNat ∧ b.toNat ≤ 90 := hup
    rw [UInt8.toNat_add]
    show (b.toNat + 32) % 256 < 128
    omega
  next => exact h

section

variable {toLowercase : Text → Text}

/--
`to_lowercase` on ASCII.
-/
def LowersAscii (toLowercase : Text → Text) : Prop :=
  ∀ t : Text, (∀ c ∈ t, c.toNat < 128) → toLowercase t = t.map Char.toLower

/--
The entry of the map that a field becomes.
-/
def entryOf (f : Http.Wire.Field) : Σ _ : String, String :=
  ⟨String.ofList (chars (f.name.map lowerByte)), String.ofList (trimText (fromUtf8Lossy f.value))⟩

theorem toNat_name {f : Http.Wire.Field} (h : f.WellFormed) {b : UInt8} (hb : b ∈ f.name)
    : 33 ≤ b.toNat ∧ b.toNat < 127 :=
  toNat_isTchar ((Http.Wire.isToken_iff.mp h.name).2 b hb)

theorem bytes_entryOf {f : Http.Wire.Field} (h : f.WellFormed) : bytes (entryOf f).1 = f.pair.1 := by
  apply bytes_chars
  intro b hb
  obtain ⟨c, hc, rfl⟩ := List.mem_map.mp hb
  have := toNat_name h hc
  apply lowerByte_lt
  omega

theorem toLowercase_name (hlower : LowersAscii toLowercase) {f : Http.Wire.Field} (h : f.WellFormed)
    : toLowercase (chars f.name) = chars (f.name.map lowerByte) := by
  have hascii : ∀ c ∈ chars f.name, c.toNat < 128 := by
    intro c hc
    obtain ⟨b, hb, rfl⟩ := List.mem_map.mp hc
    have := toNat_name h hb
    rw [toNat_char (by omega)]
    omega
  rw [hlower _ hascii]
  unfold chars
  rw [List.map_map, List.map_map]
  apply List.map_congr_left
  intro b hb
  have := toNat_name h hb
  exact toLower_char (by omega)

theorem fromUtf8Lossy_line {f : Http.Wire.Field} (h : f.WellFormed)
    : fromUtf8Lossy f.line = chars f.name ++ ':' :: (chars f.before ++ (fromUtf8Lossy f.value ++ chars f.after)) := by
  have hows {bs : Bytes} (hbs : ∀ b ∈ bs, Http.Wire.isOws b = true) : ∀ b ∈ bs, b < 0x80 := by
    intro b hb
    have := hbs b hb
    simp only [Http.Wire.isOws, Bool.or_eq_true, beq_iff_eq] at this
    rcases this with rfl | rfl <;> decide
  have hname : ∀ b ∈ f.name, b < 0x80 := by
    intro b hb
    have := toNat_name h hb
    rw [UInt8.lt_iff_toNat_lt]
    show b.toNat < 128
    omega
  unfold Http.Wire.Field.line
  rw [Rust.Lossy.fromUtf8Lossy_append hname, Rust.Lossy.fromUtf8Lossy_cons (by decide),
    Rust.Lossy.fromUtf8Lossy_append (hows h.before), fromUtf8Lossy_trailing (hows h.after)]
  rfl

theorem parseHeader_line (hlower : LowersAscii toLowercase) {f : Http.Wire.Field} (h : f.WellFormed)
    : parseHeader toLowercase (fromUtf8Lossy f.line) = some (entryOf f) := by
  have hcolon : ∀ c ∈ chars f.name, decide (c ≠ ':') = true := by
    intro c hc
    obtain ⟨b, hb, rfl⟩ := List.mem_map.mp hc
    rw [decide_eq_true_eq]
    intro heq
    have hbound := toNat_name h hb
    have hnat := congrArg Char.toNat heq
    rw [toNat_char (by omega)] at hnat
    have hb58 : b = 58 := UInt8.toNat_inj.mp hnat
    rw [hb58] at hb
    exact Http.Wire.isToken_notMem h.name (by decide) hb
  have hblank {bs : Bytes} (hbs : ∀ b ∈ bs, Http.Wire.isOws b = true) : Rust.Str.Blank (chars bs) := by
    intro c hc
    obtain ⟨b, hb, rfl⟩ := List.mem_map.mp hc
    exact isWhitespace_isOws (hbs b hb)
  have hsolid : ∀ c ∈ chars f.name, isWhitespace c = false := by
    intro c hc
    obtain ⟨b, hb, rfl⟩ := List.mem_map.mp hc
    exact not_isWhitespace (toNat_name h hb)
  have hstop : ∀ rest : Text, ∀ c ∈ (':' :: rest).head?, decide (c ≠ ':') = false := by
    rintro rest c ⟨rfl⟩
    decide
  unfold parseHeader
  rw [fromUtf8Lossy_line h, Rust.Str.dropWhile_append hcolon (hstop _), Rust.Str.takeWhile_append hcolon (hstop _)]
  dsimp only
  rw [trimText_solid hsolid, toLowercase_name hlower h, trimText_between (hblank h.before) (hblank h.after)]
  rfl

/--
The map of the headers holds the fields in their order, the later in the place of the earlier.
-/
theorem parseHeaders_lines (hlower : LowersAscii toLowercase) {fields : List Http.Wire.Field}
    (h : ∀ f ∈ fields, f.WellFormed)
    : parseHeaders toLowercase ((fields.map Http.Wire.Field.line).map fromUtf8Lossy ++ [[]])
      = HashMap.extend ∅ (fields.map entryOf) := by
  have hlines : ((fields.map Http.Wire.Field.line).map fromUtf8Lossy ++ [[]]).takeWhile (fun l => decide (l ≠ []))
      = (fields.map Http.Wire.Field.line).map fromUtf8Lossy := by
    rw [List.takeWhile_append_of_pos]
    . exact List.append_nil _
    . intro l hl
      rw [List.map_map, List.mem_map] at hl
      obtain ⟨f, hf, rfl⟩ := hl
      rw [Function.comp_apply, fromUtf8Lossy_line (h f hf)]
      simp
  have hentries : ((fields.map Http.Wire.Field.line).map fromUtf8Lossy).filterMap (parseHeader toLowercase)
      = fields.map entryOf := by
    rw [List.map_map, List.filterMap_map, ← List.filterMap_eq_map]
    apply List.filterMap_congr
    intro f hf
    exact parseHeader_line hlower (h f hf)
  unfold parseHeaders
  rw [hlines, hentries]

theorem isDigit_char {b : UInt8} (h : Http.Wire.isDigit b = true)
    : 48 ≤ b.toNat ∧ b.toNat ≤ 57 ∧ (Char.ofNat b.toNat).isDigit = true := by
  simp only [Http.Wire.isDigit, Bool.and_eq_true, decide_eq_true_eq, UInt8.le_iff_toNat_le] at h
  have hbound : 48 ≤ b.toNat ∧ b.toNat ≤ 57 := h
  refine ⟨hbound.1, hbound.2, ?_⟩
  have hnat := @toNat_char b (by omega)
  have hdigit : (Char.ofNat b.toNat).isDigit = true
      ↔ 48 ≤ (Char.ofNat b.toNat).toNat ∧ (Char.ofNat b.toNat).toNat ≤ 57 := by
    simp only [Char.isDigit, Bool.and_eq_true, decide_eq_true_eq]
    exact Iff.rfl
  rw [hdigit, hnat]
  exact hbound

theorem digitsValue_chars {bs : Bytes} (hdigits : ∀ b ∈ bs, Http.Wire.isDigit b = true)
    : Rust.digitsValue (chars bs) = Http.Wire.digitsValue bs := by
  unfold Rust.digitsValue Http.Wire.digitsValue chars
  generalize 0 = n
  induction bs generalizing n with
  | nil => rfl
  | cons b bs ih =>
    have hb := isDigit_char (hdigits b List.mem_cons_self)
    rw [List.map_cons, List.foldl_cons, List.foldl_cons, toNat_char (by omega),
      ih (fun b hb => hdigits b (List.mem_cons_of_mem _ hb))]
    rfl

theorem parseU64_chars {bs : Bytes} (hne : bs ≠ []) (hdigits : ∀ b ∈ bs, Http.Wire.isDigit b = true)
    : Rust.parseU64 (chars bs)
      = if Http.Wire.digitsValue bs < 2 ^ 64 then some (Http.Wire.digitsValue bs) else none := by
  have hall : (chars bs).all Char.isDigit = true := by
    rw [List.all_eq_true]
    intro c hc
    obtain ⟨b, hb, rfl⟩ := List.mem_map.mp hc
    exact (isDigit_char (hdigits b hb)).2.2
  have hnat : Rust.parseNat (chars bs) = some (Http.Wire.digitsValue bs) := by
    unfold Rust.parseNat
    rw [if_pos, digitsValue_chars hdigits]
    refine ⟨?_, hall⟩
    simpa [chars] using hne
  unfold Rust.parseU64
  split
  next rest heq =>
    rw [heq] at hall
    cases hall
  next =>
    dsimp only
    rw [hnat]
    rfl

theorem parseStatus_statusLine {r : Response} (h : r.WellFormed)
    : parseStatus (fromUtf8Lossy r.statusLine) = r.status := by
  have hdigits : ∀ b ∈ numeral r.status, Http.Wire.isDigit b = true := fun b hb => Http.Wire.isDigit_numeral hb
  have hnumeral : ∀ b ∈ numeral r.status, b < 0x80 := by
    intro b hb
    have := isDigit_char (hdigits b hb)
    rw [UInt8.lt_iff_toNat_lt]
    show b.toNat < 128
    omega
  have hversion : ∀ b ∈ Http.Wire.version, b < 0x80 := List.all_iff_forall_prop.mp (by decide)
  have hvalue : Http.Wire.digitsValue (numeral r.status) = r.status := Http.Wire.digitsValue_numeral r.status
  have hsplit : splitn 3 (fromUtf8Lossy r.statusLine)
      = [chars Http.Wire.version, chars (numeral r.status), fromUtf8Lossy r.reason] := by
    have hfirst : ∀ c ∈ chars Http.Wire.version, decide (c ≠ ' ') = true := List.all_eq_true.mp (by decide)
    have hsecond : ∀ c ∈ chars (numeral r.status), decide (c ≠ ' ') = true := by
      intro c hc
      obtain ⟨b, hb, rfl⟩ := List.mem_map.mp hc
      have hbound := isDigit_char (hdigits b hb)
      rw [decide_eq_true_eq]
      rintro heq
      rw [heq] at hbound
      exact absurd hbound.2.2 (by decide)
    have hstop : ∀ rest : Text, ∀ c ∈ (' ' :: rest).head?, decide (c ≠ ' ') = false := by
      rintro rest c ⟨rfl⟩
      decide
    unfold Response.statusLine
    rw [Rust.Lossy.fromUtf8Lossy_append hversion, Rust.Lossy.fromUtf8Lossy_cons (by decide),
      Rust.Lossy.fromUtf8Lossy_append hnumeral, Rust.Lossy.fromUtf8Lossy_cons (by decide)]
    change splitn 3 (chars Http.Wire.version ++ ' ' :: (chars (numeral r.status) ++ ' ' :: fromUtf8Lossy r.reason)) = _
    rw [splitn, Rust.Str.dropWhile_append hfirst (hstop _), Rust.Str.takeWhile_append hfirst (hstop _)]
    dsimp only
    rw [splitn, Rust.Str.dropWhile_append hsecond (hstop _), Rust.Str.takeWhile_append hsecond (hstop _)]
    rfl
  unfold parseStatus
  rw [hsplit]
  have hparse := parseU64_chars (Http.Wire.numeral_ne_nil r.status) hdigits
  rw [hvalue, if_pos (by have := h.status; omega)] at hparse
  change ((Rust.parseU64 (chars (numeral r.status))).filter _).getD 500 = _
  rw [hparse]
  have := h.status
  simp only [Option.filter_some]
  rw [if_pos]
  . rfl
  . rw [decide_eq_true_eq]
    omega

theorem mem_map_entryOf {fields : List Http.Wire.Field} (h : ∀ f ∈ fields, f.WellFormed) {key value : String}
    (hmem : ⟨key, value⟩ ∈ fields.map entryOf)
    : ∃ f ∈ fields, f.pair.1 = bytes key ∧ value = String.ofList (trimText (fromUtf8Lossy f.value)) := by
  obtain ⟨f, hf, heq⟩ := List.mem_map.mp hmem
  refine ⟨f, hf, ?_, ?_⟩
  . rw [← bytes_entryOf (h f hf), heq]
  . have := congrArg Sigma.snd heq
    exact (eq_of_heq (Sigma.mk.inj heq).2).symm

theorem mem_keys_entryOf {fields : List Http.Wire.Field} (h : ∀ f ∈ fields, f.WellFormed) {key : String}
    : key ∈ (fields.map entryOf).keys ↔ ∃ f ∈ fields, f.pair.1 = bytes key := by
  unfold List.keys
  rw [List.map_map, List.mem_map]
  constructor
  . rintro ⟨f, hf, rfl⟩
    exact ⟨f, hf, (bytes_entryOf (h f hf)).symm⟩
  . rintro ⟨f, hf, hname⟩
    refine ⟨f, hf, ?_⟩
    apply Rust.Str.bytes_inj
    rw [← hname]
    exact bytes_entryOf (h f hf)

/--
The map of the headers of a response.
-/
def headersOf (r : Response) : HashMap String :=
  HashMap.extend ∅ (r.fields.map entryOf)

theorem lookup_headersOf_none {r : Response} (h : r.WellFormed) {key : String} (hnone : valuesOf (bytes key) r.pairs = [])
    : (headersOf r).lookup key = none := by
  unfold headersOf
  rw [HashMap.lookup_extend_of_notMem, AList.lookup_empty]
  rw [mem_keys_entryOf h.fields]
  rintro ⟨f, hf, hname⟩
  rw [Http.Wire.valuesOf_eq_nil] at hnone
  exact hnone f.pair (List.mem_map_of_mem hf) hname

theorem mem_of_lookup_headersOf {r : Response} (h : r.WellFormed) {key value : String}
    (hlookup : (headersOf r).lookup key = some value)
    : ∃ f ∈ r.fields, f.pair.1 = bytes key ∧ value = String.ofList (trimText (fromUtf8Lossy f.value)) := by
  cases HashMap.lookup_extend_cases hlookup with
  | inl hmem => exact mem_map_entryOf h.fields hmem
  | inr hempty =>
    rw [AList.lookup_empty] at hempty
    cases hempty

theorem isSome_lookup_headersOf {r : Response} (h : r.WellFormed) {key : String} {f : Http.Wire.Field} (hf : f ∈ r.fields)
    (hname : f.pair.1 = bytes key) : ∃ value, (headersOf r).lookup key = some value := by
  apply Option.isSome_iff_exists.mp
  apply HashMap.isSome_lookup_extend
  left
  rw [mem_keys_entryOf h.fields]
  exact ⟨f, hf, hname⟩

theorem lookup_headersOf_single {r : Response} (h : r.WellFormed) {key : String} {v : Bytes}
    (hone : valuesOf (bytes key) r.pairs = [v])
    : (headersOf r).lookup key = some (String.ofList (trimText (fromUtf8Lossy v))) := by
  have hmem : v ∈ valuesOf (bytes key) r.pairs := by
    rw [hone]
    exact List.mem_singleton_self v
  rw [Http.Wire.mem_valuesOf] at hmem
  obtain ⟨f, hf, heq⟩ := List.mem_map.mp hmem
  obtain ⟨value, hvalue⟩ := isSome_lookup_headersOf h hf (congrArg Prod.fst heq)
  obtain ⟨g, hg, hname, rfl⟩ := mem_of_lookup_headersOf h hvalue
  have hmem' : g.value ∈ valuesOf (bytes key) r.pairs := by
    rw [Http.Wire.mem_valuesOf, ← hname]
    exact List.mem_map_of_mem hg
  rw [hone, List.mem_singleton] at hmem'
  rw [hvalue, hmem']

/--
What is read once the head is there.
-/
theorem readResponse_eq (hlower : LowersAscii toLowercase) {r : Response} (h : r.WellFormed)
    (hlen : r.head.length ≤ 65536) {reads : List Bytes} (hnil : ∀ c ∈ reads, c ≠ []) {rest : Bytes}
    (hreads : reads.flatten = r.head ++ rest)
    : ∃ start reads', arrived r.head.length [] reads = r.head ++ start ∧ (∀ c ∈ reads', c ≠ [])
      ∧ start ++ reads'.flatten = rest
      ∧ readResponse toLowercase reads = .ok {
          status := r.status
          headers := (headersOf r).entries.map (fun e => (e.1, e.2))
          body := match ((headersOf r).lookup "content-length").bind (fun s => Rust.parseU64 s.toList) with
            | some len => (readUntil len start reads').take len
            | none =>
              if ((headersOf r).lookup "transfer-encoding").any (fun v => decide ("chunked".toList <:+: v.toList)) then
                start
              else
                readToEnd start reads'
        } := by
  have hpos := four_le_head h
  have hbuf : ([] : Bytes).length < r.head.length := by
    rw [List.length_nil]
    omega
  obtain ⟨reads', hread, hnil', hflatten, start, hstart⟩ := readHead_of_head h hlen hnil hbuf ⟨rest, hreads.symm⟩
  refine ⟨start, reads', hstart.symm, hnil', ?_, ?_⟩
  . rw [← hstart, List.nil_append, hreads, List.append_assoc] at hflatten
    exact List.append_cancel_left hflatten
  . have hlines : Posix.lines (fromUtf8Lossy r.head)
        = fromUtf8Lossy r.statusLine :: ((r.fields.map Http.Wire.Field.line).map fromUtf8Lossy ++ [[]]) := by
      unfold Response.head
      rw [lines_fromUtf8Lossy (fun l hl => (h.lines hl (.inl rfl)).2)]
      rfl
    unfold readResponse
    rw [hread]
    simp only [bind, Except.bind, ← hstart, List.take_left, List.drop_left, hlines]
    rw [parseHeaders_lines hlower h.fields, parseStatus_statusLine h]
    rfl

/-! ## The body of each framing -/

theorem bytes_keys
    : bytes "content-length" = Http.Wire.contentLength ∧ bytes "transfer-encoding" = Http.Wire.transferEncoding
      ∧ chars Http.Wire.chunkedCoding = "chunked".toList := by
  decide

theorem fromUtf8Lossy_ascii {bs : Bytes} (h : ∀ b ∈ bs, 33 ≤ b.toNat ∧ b.toNat < 127)
    : trimText (fromUtf8Lossy bs) = chars bs := by
  have hascii : ∀ b ∈ bs, b < 0x80 := by
    intro b hb
    have := h b hb
    rw [UInt8.lt_iff_toNat_lt]
    show b.toNat < 128
    omega
  have htext := Rust.Lossy.fromUtf8Lossy_append hascii []
  rw [List.append_nil, Rust.Lossy.fromUtf8Lossy_nil, List.append_nil] at htext
  rw [htext]
  apply trimText_solid
  intro c hc
  obtain ⟨b, hb, rfl⟩ := List.mem_map.mp hc
  exact not_isWhitespace (h b hb)

/--
A stated length is that of the body, unless it is too large a number.
-/
theorem contentLength_of_length {r : Response} (h : r.WellFormed) (hf : r.framing = .length)
    : (((headersOf r).lookup "content-length").bind (fun s => Rust.parseU64 s.toList) = some r.body.length
        ∨ ((headersOf r).lookup "content-length").bind (fun s => Rust.parseU64 s.toList) = none)
      ∧ (headersOf r).lookup "transfer-encoding" = none := by
  obtain ⟨hlength, hencoding, -⟩ := bytes_keys
  have hframed := h.framed
  unfold Response.Framed at hframed
  rw [hf] at hframed
  obtain ⟨⟨digits, hone, hne, hdigits, hvalue⟩, hnone⟩ := hframed
  rw [← hlength] at hone
  rw [← hencoding] at hnone
  refine ⟨?_, lookup_headersOf_none h hnone⟩
  have htext : trimText (fromUtf8Lossy digits) = chars digits := by
    apply fromUtf8Lossy_ascii
    intro b hb
    have := isDigit_char (hdigits b hb)
    omega
  rw [lookup_headersOf_single h hone, Option.bind_some, String.toList_ofList, htext, parseU64_chars hne hdigits, hvalue]
  split
  . exact .inl rfl
  . exact .inr rfl

theorem lookup_of_close {r : Response} (h : r.WellFormed) (hf : r.framing = .close)
    : (headersOf r).lookup "content-length" = none ∧ (headersOf r).lookup "transfer-encoding" = none := by
  obtain ⟨hlength, hencoding, -⟩ := bytes_keys
  have hframed := h.framed
  unfold Response.Framed at hframed
  rw [hf] at hframed
  rw [← hlength, ← hencoding] at hframed
  exact ⟨lookup_headersOf_none h hframed.1, lookup_headersOf_none h hframed.2⟩

theorem toNat_of_lowerByte {b c : UInt8} (hb : lowerByte b = c) (hc : 97 ≤ c.toNat ∧ c.toNat ≤ 122)
    : 65 ≤ b.toNat ∧ b.toNat ≤ 122 := by
  subst hb
  unfold lowerByte at hc
  split at hc
  next hup =>
    simp only [Bool.and_eq_true, decide_eq_true_eq, UInt8.le_iff_toNat_le] at hup
    have hup : 65 ≤ b.toNat ∧ b.toNat ≤ 90 := hup
    omega
  next => omega

/--
The reader only knows the coding in lower case.
-/
theorem lookup_of_chunked {r : Response} (h : r.WellFormed) {chunks : List Http.Wire.Chunk} {last : Http.Wire.Chunk}
    {trailers : List Http.Wire.Field} (hf : r.framing = .chunked chunks last trailers)
    : (headersOf r).lookup "content-length" = none
      ∧ (((headersOf r).lookup "transfer-encoding").any (fun v => decide ("chunked".toList <:+: v.toList)) = true
        ↔ (Http.Wire.transferEncoding, Http.Wire.chunkedCoding) ∈ r.pairs) := by
  obtain ⟨hlength, hencoding, hchunked⟩ := bytes_keys
  have hframed := h.framed
  unfold Response.Framed at hframed
  rw [hf] at hframed
  obtain ⟨hnone, ⟨coding, hone, hcoding⟩, -⟩ := hframed
  rw [← hlength] at hnone
  refine ⟨lookup_headersOf_none h hnone, ?_⟩
  rw [← Http.Wire.mem_valuesOf, hone, List.mem_singleton]
  rw [← hencoding] at hone
  have hletters : ∀ b ∈ coding, 65 ≤ b.toNat ∧ b.toNat ≤ 122 := by
    intro b hb
    have hall : ∀ c ∈ Http.Wire.chunkedCoding, 97 ≤ c.toNat ∧ c.toNat ≤ 122 :=
      List.all_iff_forall_prop.mp (by decide)
    have hmem : lowerByte b ∈ coding.map lowerByte := List.mem_map_of_mem hb
    rw [hcoding] at hmem
    exact toNat_of_lowerByte rfl (hall _ hmem)
  have htext : trimText (fromUtf8Lossy coding) = chars coding := by
    apply fromUtf8Lossy_ascii
    intro b hb
    have := hletters b hb
    omega
  have hsize : coding.length = Http.Wire.chunkedCoding.length := by
    rw [← hcoding, List.length_map]
  rw [lookup_headersOf_single h hone, Option.any_some, decide_eq_true_eq,
    @String.toList_ofList (trimText (fromUtf8Lossy coding)), htext, ← hchunked]
  constructor
  . intro hinfix
    have heq := hinfix.eq_of_length (by rw [chars, chars, List.length_map, List.length_map, hsize])
    have hbytes := congrArg (fun t => bytes (String.ofList t)) heq
    have hascii : ∀ b ∈ Http.Wire.chunkedCoding, b.toNat < 128 := List.all_iff_forall_prop.mp (by decide)
    rw [bytes_chars hascii, bytes_chars] at hbytes
    . exact hbytes
    . intro b hb
      have := hletters b hb
      omega
  . rintro rfl
    exact List.infix_rfl

/-! ## Values -/

theorem head_dropWhile (s : Text) : ∀ c ∈ (s.dropWhile isWhitespace).head?, isWhitespace c = false := by
  intro c hc
  have := List.head?_dropWhile_not isWhitespace s
  rw [hc] at this
  exact this

theorem ends_trimEnd (s : Text) : Rust.Str.Ends (trimEnd s) := by
  unfold Rust.Str.Ends trimEnd
  rw [List.getLast?_reverse]
  exact head_dropWhile s.reverse

theorem trimEnd_append (s : Text) : ∃ after, s = trimEnd s ++ after := by
  refine ⟨(s.reverse.takeWhile isWhitespace).reverse, ?_⟩
  unfold trimEnd
  rw [← List.reverse_append, List.takeWhile_append_dropWhile, List.reverse_reverse]

theorem starts_trimText (s : Text) : Rust.Str.Starts (trimText s) := by
  unfold trimText
  obtain ⟨after, hafter⟩ := trimEnd_append (trimStart s)
  intro c hc
  apply head_dropWhile s
  change c ∈ (trimStart s).head?
  rw [hafter]
  cases htrim : trimEnd (trimStart s) with
  | nil =>
    rw [htrim] at hc
    cases hc
  | cons d t =>
    rw [htrim] at hc
    exact hc

theorem trimText_self {s : Text} (hstarts : Rust.Str.Starts s) (hends : Rust.Str.Ends s) : trimText s = s := by
  have hstart := @Rust.Str.trimStart_append [] s nofun hstarts
  have hend := @Rust.Str.trimEnd_append [] s nofun hends
  rw [List.nil_append] at hstart
  rw [List.append_nil] at hend
  unfold trimText
  rw [hstart, hend]

/--
A value comes back if it is trimmed text.
-/
theorem isTrimmedText_iff {value : Bytes}
    : IsTrimmedText value ↔ bytes (String.ofList (trimText (fromUtf8Lossy value))) = value := by
  constructor
  . rintro ⟨text, rfl, hstarts, hends⟩
    rw [Rust.Lossy.fromUtf8Lossy_bytes, trimText_self hstarts hends, String.ofList_toList]
  . intro heq
    refine ⟨String.ofList (trimText (fromUtf8Lossy value)), heq, ?_⟩
    rw [String.toList_ofList]
    exact ⟨starts_trimText _, ends_trimEnd _⟩

theorem mem_trimText {s : Text} {c : Char} (h : c ∈ trimText s) : c ∈ s := by
  apply List.dropWhile_subset isWhitespace
  obtain ⟨after, hafter⟩ := trimEnd_append (trimStart s)
  change c ∈ trimStart s
  rw [hafter]
  exact List.mem_append_left after h

/--
Every value that is read can be written again.
-/
theorem isFieldByte_value {value : Bytes} (h : ∀ b ∈ value, isFieldByte b = true) {b : UInt8}
    (hb : b ∈ bytes (String.ofList (trimText (fromUtf8Lossy value)))) : isFieldByte b = true := by
  by_cases hascii : b.toNat < 128
  . obtain ⟨c, hc, heq⟩ := Rust.Str.exists_mem_of_mem_bytes hb hascii
    rw [String.toList_ofList] at hc
    obtain ⟨b', hb', heq'⟩ := Rust.Lossy.mem_fromUtf8Lossy (mem_trimText hc) (by omega)
    have : b' = b := UInt8.toNat_inj.mp (heq'.trans heq.symm)
    rw [← this]
    exact h b' hb'
  . apply isFieldByte_of_toNat
    . omega
    . omega

/-! ## The headers -/

theorem bytes_platform
    : ∀ name ∈ ["x-request-id", "x-reactor-function", "x-reactor-cold-start", "x-reactor-duration-ms"],
        isToken (bytes name) = true ∧ (bytes name).map lowerByte = bytes name := by
  decide

theorem bytes_flags : ∀ b ∈ bytes "true" ++ bytes "false", isFieldByte b = true :=
  List.all_eq_true.mp (by decide)

theorem lowerByte_of_upper {b : UInt8} (h : 65 ≤ b.toNat ∧ b.toNat ≤ 90)
    : (lowerByte b).toNat = b.toNat + 32 := by
  have hup : (decide (65 ≤ b) && decide (b ≤ 90)) = true := by
    simp only [Bool.and_eq_true, decide_eq_true_eq, UInt8.le_iff_toNat_le]
    exact h
  unfold lowerByte
  rw [if_pos hup, UInt8.toNat_add]
  show (b.toNat + 32) % 256 = _
  omega

theorem lowerByte_of_not_upper {b : UInt8} (h : ¬ (65 ≤ b.toNat ∧ b.toNat ≤ 90)) : lowerByte b = b := by
  unfold lowerByte
  rw [if_neg]
  simp only [Bool.and_eq_true, decide_eq_true_eq, UInt8.le_iff_toNat_le]
  exact h

theorem lowerByte_lowerByte (b : UInt8) : lowerByte (lowerByte b) = lowerByte b := by
  by_cases h : 65 ≤ b.toNat ∧ b.toNat ≤ 90
  . apply lowerByte_of_not_upper
    rw [lowerByte_of_upper h]
    omega
  . rw [lowerByte_of_not_upper h, lowerByte_of_not_upper h]

theorem isTchar_lowerByte {b : UInt8} (h : Http.Wire.isTchar b = true) : Http.Wire.isTchar (lowerByte b) = true := by
  by_cases hup : 65 ≤ b.toNat ∧ b.toNat ≤ 90
  . have hlow := lowerByte_of_upper hup
    simp only [Http.Wire.isTchar, Http.Wire.isAlpha, Bool.or_eq_true, Bool.and_eq_true, decide_eq_true_eq,
      UInt8.le_iff_toNat_le]
    left
    left
    right
    change 97 ≤ (lowerByte b).toNat ∧ (lowerByte b).toNat ≤ 122
    omega
  . rw [lowerByte_of_not_upper hup]
    exact h

/--
Whether a header can be written, and how it is.
-/
def isHeader (h : String × String) : Bool :=
  isToken (bytes h.1) && (bytes h.2).all isFieldByte

def written (h : String × String) : Bytes × Bytes :=
  ((bytes h.1).map lowerByte, bytes h.2)

theorem header_eq (h : String × String) : header h = if isHeader h then some (written h) else none := by
  unfold header headerName headerValue isHeader written
  by_cases hname : isToken (bytes h.1) = true
  . by_cases hvalue : (bytes h.2).all isFieldByte = true
    . simp only [hname, hvalue, if_true, Bool.and_self, Option.bind_eq_bind, Option.bind_some, Option.pure_def]
    . simp only [hname, hvalue, if_true, Bool.and_false, Option.bind_eq_bind, Option.bind_some, Bool.false_eq_true,
        if_false, Option.bind_none]
  . simp only [hname, Bool.false_and, Bool.false_eq_true, if_false, Option.bind_eq_bind, Option.bind_none]

/--
The headers that a response has in the map, as they are written.
-/
def mapped (r : Response) : List (Bytes × Bytes) :=
  (headersOf r).entries.map (fun e => headerPair (e.1, e.2))

theorem entry_isHeader {r : Response} (h : r.WellFormed) {e : Σ _ : String, String} (he : e ∈ (headersOf r).entries)
    : isHeader (e.1, e.2) = true ∧ written (e.1, e.2) = headerPair (e.1, e.2) := by
  obtain ⟨f, hf, hname, hvalue⟩ := mem_of_lookup_headersOf h (AList.mem_lookup_iff.mpr he)
  have htoken := Http.Wire.isToken_iff.mp (h.fields f hf).name
  have hbytes : bytes e.1 = f.name.map lowerByte := hname.symm
  constructor
  . unfold isHeader
    rw [Bool.and_eq_true, List.all_eq_true, Http.Wire.isToken_iff, hbytes]
    refine ⟨⟨?_, ?_⟩, ?_⟩
    . simpa using htoken.1
    . intro b hb
      obtain ⟨c, hc, rfl⟩ := List.mem_map.mp hb
      exact isTchar_lowerByte (htoken.2 c hc)
    . intro b hb
      change b ∈ bytes e.2 at hb
      rw [hvalue] at hb
      exact isFieldByte_value (h.fields f hf).value hb
  . unfold written headerPair
    rw [hbytes, List.map_map]
    congr 2
    funext b
    exact lowerByte_lowerByte b

/--
Of the headers of the platform only the name of the function may not be one that can be written.
-/
theorem platform_isHeader {platform : Platform} {x : String × String} (hx : x ∈ platform.headers)
    : written x = headerPair x
      ∧ (x.2 = platform.functionName ∨ isHeader x = true) ∧ isToken (bytes x.1) = true := by
  have hvalid {name value : String}
      (hname : name ∈ ["x-request-id", "x-reactor-function", "x-reactor-cold-start", "x-reactor-duration-ms"])
      (hvalue : value = platform.functionName ∨ ∀ b ∈ bytes value, isFieldByte b = true)
      : written (name, value) = headerPair (name, value)
        ∧ (value = platform.functionName ∨ isHeader (name, value) = true) ∧ isToken (bytes name) = true := by
    obtain ⟨htoken, hlower⟩ := bytes_platform name hname
    refine ⟨?_, ?_, htoken⟩
    . unfold written headerPair
      rw [hlower]
    . cases hvalue with
      | inl heq => exact .inl heq
      | inr hall =>
        right
        unfold isHeader
        rw [htoken, Bool.true_and, List.all_eq_true]
        exact hall
  unfold Platform.headers at hx
  simp only [List.mem_cons, List.not_mem_nil, or_false] at hx
  rcases hx with rfl | rfl | rfl | rfl
  . apply hvalid (by simp)
    right
    intro b hb
    have := bytes_hyphenated hb
    apply isFieldByte_of_toNat
    . omega
    . omega
  . exact hvalid (by simp) (.inl rfl)
  . apply hvalid (by simp)
    right
    intro b hb
    apply bytes_flags
    rw [List.mem_append]
    cases hcold : platform.coldStart with
    | true =>
      rw [hcold] at hb
      exact .inl hb
    | false =>
      rw [hcold] at hb
      exact .inr hb
  . apply hvalid (by simp)
    right
    intro b hb
    rw [bytes_repr] at hb
    have := isDigit_char (Http.Wire.isDigit_numeral hb)
    apply isFieldByte_of_toNat
    . omega
    . omega

theorem mapM_header_eq {headers : List (String × String)} {out : List (Bytes × Bytes)}
    : headers.mapM header = some out ↔ (∀ x ∈ headers, isHeader x = true) ∧ out = headers.map written :=
  Http.Wire.mapM_eq_some fun x _ => header_eq x

/--
The reply to a response, unless the name of the function cannot be written.
-/
theorem buildResponse_eq {platform : Platform} {r : Response} (h : r.WellFormed) (body : Bytes)
    (hfunction : ∀ b ∈ bytes platform.functionName, isFieldByte b = true)
    : buildResponse platform
          { status := r.status, headers := (headersOf r).entries.map (fun e => (e.1, e.2)), body }
        = { status := r.status, headers := mapped r ++ platform.headers.map headerPair, body } := by
  have hall : ((headersOf r).entries.map (fun e => (e.1, e.2)) ++ platform.headers).mapM header
      = some (mapped r ++ platform.headers.map headerPair) := by
    rw [mapM_header_eq]
    constructor
    . intro x hx
      rw [List.mem_append] at hx
      cases hx with
      | inl hx =>
        obtain ⟨e, he, rfl⟩ := List.mem_map.mp hx
        exact (entry_isHeader h he).1
      | inr hx =>
        obtain ⟨-, hname | hheader, htoken⟩ := platform_isHeader hx
        . unfold isHeader
          rw [htoken, Bool.true_and, List.all_eq_true, hname]
          exact hfunction
        . exact hheader
    . rw [List.map_append, List.map_map]
      have hmapped : mapped r = ((headersOf r).entries.map (written ∘ fun e => (e.1, e.2))) := by
        apply List.map_congr_left
        intro e he
        exact (entry_isHeader h he).2.symm
      have hplatform : platform.headers.map headerPair = platform.headers.map written := by
        apply List.map_congr_left
        intro x hx
        exact (platform_isHeader hx).1.symm
      rw [hmapped, hplatform]
  unfold buildResponse
  rw [hall]
  dsimp only
  rw [if_pos]
  have := h.status
  omega

theorem buildResponse_of_not {platform : Platform} {response : OutgoingResponse}
    (hfunction : ¬ ∀ b ∈ bytes platform.functionName, isFieldByte b = true)
    : (buildResponse platform response).headers = [] := by
  have hnone : (response.headers ++ platform.headers).mapM header = none := by
    rw [Option.eq_none_iff_forall_ne_some]
    intro out hout
    have hall := (mapM_header_eq.mp hout).1
    apply hfunction
    have hmem : ("x-reactor-function", platform.functionName) ∈ response.headers ++ platform.headers := by
      rw [List.mem_append]
      right
      exact List.mem_cons_of_mem _ List.mem_cons_self
    have := hall _ hmem
    unfold isHeader at this
    rw [Bool.and_eq_true, List.all_eq_true] at this
    exact this.2
  unfold buildResponse
  rw [hnone]

/-! ## What stays -/

theorem nodup_mapped (r : Response) : ((mapped r).map Prod.fst).Nodup := by
  have hkeys : ((mapped r).map Prod.fst) = (headersOf r).entries.keys.map bytes := by
    unfold mapped List.keys
    rw [List.map_map, List.map_map]
    rfl
  rw [hkeys]
  apply List.Nodup.map
  . intro s t hst
    exact Rust.Str.bytes_inj hst
  . exact (headersOf r).nodupKeys

theorem mem_mapped {r : Response} (h : r.WellFormed) {p : Bytes × Bytes} (hp : p ∈ mapped r)
    : ∃ f ∈ r.fields, f.pair.1 = p.1 ∧ p.2 = bytes (String.ofList (trimText (fromUtf8Lossy f.value))) := by
  obtain ⟨e, he, rfl⟩ := List.mem_map.mp hp
  obtain ⟨f, hf, hname, hvalue⟩ := mem_of_lookup_headersOf h (AList.mem_lookup_iff.mpr he)
  refine ⟨f, hf, hname, ?_⟩
  rw [← hvalue]
  rfl

theorem exists_mem_mapped {r : Response} (h : r.WellFormed) {f : Http.Wire.Field} (hf : f ∈ r.fields)
    : ∃ value, (f.pair.1, value) ∈ mapped r := by
  have hname : f.pair.1 = bytes (entryOf f).1 := (bytes_entryOf (h.fields f hf)).symm
  obtain ⟨value, hvalue⟩ := isSome_lookup_headersOf h hf hname
  refine ⟨bytes value, List.mem_map.mpr ⟨⟨_, value⟩, AList.mem_lookup_iff.mp hvalue, ?_⟩⟩
  rw [hname]
  rfl

theorem endToEnd_congr {r : Response} {p q : Bytes × Bytes} (h : p.1 = q.1) : endToEnd r p = endToEnd r q := by
  unfold endToEnd
  rw [h]

/--
The fields in the map are those of the response exactly where no name repeats and values are text.
-/
theorem mapped_perm_iff {r : Response} (h : r.WellFormed)
    : ((mapped r).filter (endToEnd r)).Perm (r.pairs.filter (endToEnd r))
      ↔ ((r.pairs.filter (endToEnd r)).map Prod.fst).Nodup ∧ ∀ p ∈ r.pairs, endToEnd r p = true → IsTrimmedText p.2 := by
  have hnodup : (((mapped r).filter (endToEnd r)).map Prod.fst).Nodup :=
    (nodup_mapped r).sublist (List.filter_sublist.map _)
  have hpair : ∀ f ∈ r.fields, f.pair ∈ r.pairs := fun f hf => List.mem_map_of_mem hf
  constructor
  . intro hperm
    have hnames := (hperm.map Prod.fst).nodup_iff.mp hnodup
    refine ⟨hnames, ?_⟩
    intro p hp hend
    have hmem : p ∈ (mapped r).filter (endToEnd r) := by
      rw [hperm.mem_iff, List.mem_filter]
      exact ⟨hp, hend⟩
    obtain ⟨f, hf, hname, hvalue⟩ := mem_mapped h (List.mem_filter.mp hmem).1
    have hsame : f.pair = p := by
      apply List.inj_on_of_nodup_map hnames
      . rw [List.mem_filter, endToEnd_congr hname]
        exact ⟨hpair f hf, hend⟩
      . rw [List.mem_filter]
        exact ⟨hp, hend⟩
      . exact hname
    rw [isTrimmedText_iff, ← hsame]
    rw [← hsame] at hvalue
    exact hvalue.symm
  . rintro ⟨hnames, hvalues⟩
    rw [List.perm_ext_iff_of_nodup hnodup.of_map hnames.of_map]
    have hsame {f g : Http.Wire.Field} (hf : f ∈ r.fields) (hg : g ∈ r.fields) (hend : endToEnd r f.pair = true)
        (hname : g.pair.1 = f.pair.1) : g.pair = f.pair := by
      apply List.inj_on_of_nodup_map hnames
      . rw [List.mem_filter, endToEnd_congr hname]
        exact ⟨hpair g hg, hend⟩
      . rw [List.mem_filter]
        exact ⟨hpair f hf, hend⟩
      . exact hname
    have hkept {f : Http.Wire.Field} (hf : f ∈ r.fields) (hend : endToEnd r f.pair = true)
        : bytes (String.ofList (trimText (fromUtf8Lossy f.value))) = f.value :=
      isTrimmedText_iff.mp (hvalues f.pair (hpair f hf) hend)
    intro p
    rw [List.mem_filter, List.mem_filter]
    constructor
    . rintro ⟨hp, hend⟩
      obtain ⟨f, hf, hname, hvalue⟩ := mem_mapped h hp
      have hend' : endToEnd r f.pair = true := by rw [endToEnd_congr hname, hend]
      have : p = f.pair := by
        apply Prod.ext hname.symm
        rw [hvalue, hkept hf hend']
        rfl
      rw [this]
      exact ⟨hpair f hf, hend'⟩
    . rintro ⟨hp, hend⟩
      obtain ⟨f, hf, rfl⟩ := List.mem_map.mp hp
      obtain ⟨value, hvalue⟩ := exists_mem_mapped h hf
      obtain ⟨g, hg, hname, heq⟩ := mem_mapped h hvalue
      have hgf := hsame hf hg hend hname
      have hgend : endToEnd r g.pair = true := by rw [hgf, hend]
      rw [hkept hg hgend] at heq
      have : value = f.value := heq.trans (congrArg Prod.snd hgf)
      rw [this] at hvalue
      exact ⟨hvalue, hend⟩

/--
The body that is read once the head and `start` are there.
-/
def bodyFrom (headers : HashMap String) (start : Bytes) (reads : List Bytes) : Bytes :=
  match (headers.lookup "content-length").bind (fun s => Rust.parseU64 s.toList) with
  | some len => (readUntil len start reads).take len
  | none =>
    if (headers.lookup "transfer-encoding").any (fun v => decide ("chunked".toList <:+: v.toList)) then start
    else readToEnd start reads

/--
The body that is read is that of the response, in chunks only by chance.
-/
theorem bodyFrom_eq_iff {r : Response} (h : r.WellFormed) {start : Bytes} {reads : List Bytes}
    (hnil : ∀ c ∈ reads, c ≠ []) (hpayload : start ++ reads.flatten = r.payload)
    : bodyFrom (headersOf r) start reads = r.body
      ↔ ∀ chunks last trailers, r.framing = .chunked chunks last trailers
        → (Http.Wire.transferEncoding, Http.Wire.chunkedCoding) ∈ r.pairs ∧ start = r.body := by
  cases hf : r.framing with
  | length =>
    have hbody : r.payload = r.body := by
      unfold Response.payload
      rw [hf]
    obtain ⟨hlen, hnone⟩ := contentLength_of_length h hf
    have heq : bodyFrom (headersOf r) start reads = r.body := by
      unfold bodyFrom
      cases hlen with
      | inl hsome =>
        rw [hsome]
        dsimp only
        rw [take_readUntil _ hnil, hpayload, hbody, List.take_length]
      | inr hlarge =>
        rw [hlarge, hnone]
        exact (readToEnd_eq hnil start).trans (hpayload.trans hbody)
    exact ⟨fun _ => nofun, fun _ => heq⟩
  | close =>
    have hbody : r.payload = r.body := by
      unfold Response.payload
      rw [hf]
    obtain ⟨hlen, hnone⟩ := lookup_of_close h hf
    have heq : bodyFrom (headersOf r) start reads = r.body := by
      unfold bodyFrom
      rw [hlen, hnone]
      exact (readToEnd_eq hnil start).trans (hpayload.trans hbody)
    exact ⟨fun _ => nofun, fun _ => heq⟩
  | chunked chunks last trailers =>
    obtain ⟨hlen, hcoding⟩ := lookup_of_chunked h hf
    have heq : bodyFrom (headersOf r) start reads
        = if (Http.Wire.transferEncoding, Http.Wire.chunkedCoding) ∈ r.pairs then start else r.payload := by
      unfold bodyFrom
      rw [hlen]
      dsimp only [Option.bind_none]
      rw [← hpayload, ← readToEnd_eq hnil]
      simp only [hcoding]
    have hlt := Response.length_body_lt hf h.framed
    rw [heq]
    constructor
    . intro hbody _ _ _ _
      split at hbody
      next hmem => exact ⟨hmem, hbody⟩
      next =>
        rw [hbody] at hlt
        omega
    . intro hall
      obtain ⟨hmem, hstart⟩ := hall chunks last trailers rfl
      rw [if_pos hmem, hstart]

/--
What is read of a response whose head is there.
-/
def readOf (r : Response) (start : Bytes) (reads : List Bytes) : OutgoingResponse :=
  {
    status := r.status
    headers := (headersOf r).entries.map (fun e => (e.1, e.2))
    body := bodyFrom (headersOf r) start reads
  }

theorem unchanged_iff {platform : Platform} {r : Response} (h : r.WellFormed) (start : Bytes) (reads : List Bytes)
    : Unchanged platform r (buildResponse platform (readOf r start reads))
      ↔ (∀ b ∈ bytes platform.functionName, isFieldByte b = true)
        ∧ (((r.pairs.filter (endToEnd r)).map Prod.fst).Nodup
          ∧ ∀ p ∈ r.pairs, endToEnd r p = true → IsTrimmedText p.2)
        ∧ bodyFrom (headersOf r) start reads = r.body := by
  by_cases hfunction : ∀ b ∈ bytes platform.functionName, isFieldByte b = true
  . unfold readOf
    rw [buildResponse_eq h _ hfunction, ← mapped_perm_iff h]
    constructor
    . rintro ⟨-, ⟨hops, hhops, hperm⟩, hbody⟩
      refine ⟨hfunction, ?_, hbody⟩
      rw [List.perm_append_right_iff] at hperm
      have hfilter := hperm.filter (endToEnd r)
      rw [List.filter_append, List.filter_filter] at hfilter
      have hnone : hops.filter (endToEnd r) = [] := by
        rw [List.filter_eq_nil_iff]
        intro p hp
        rw [hhops p hp]
        decide
      simpa [hnone] using hfilter
    . rintro ⟨-, hperm, hbody⟩
      refine ⟨rfl, ⟨(mapped r).filter (fun p => !endToEnd r p), ?_, ?_⟩, hbody⟩
      . intro p hp
        simpa using (List.mem_filter.mp hp).2
      . rw [List.perm_append_right_iff]
        have hsplit := List.filter_append_perm (endToEnd r) (mapped r)
        exact hsplit.symm.trans ((hperm.append_right _).trans List.perm_append_comm)
  . constructor
    . rintro ⟨-, ⟨hops, -, hperm⟩, -⟩
      rw [buildResponse_of_not hfunction] at hperm
      have hlen := hperm.length_eq
      simp [Platform.headers] at hlen
    . rintro ⟨hall, -⟩
      contradiction

/--
Once the head is there, there is a reply.
-/
theorem respond_of_head (hlower : LowersAscii toLowercase) {r : Response} (h : r.WellFormed)
    (hlen : r.head.length ≤ 65536) {reads : List Bytes} (hnil : ∀ c ∈ reads, c ≠ []) (platform : Platform)
    {rest : Bytes} (hreads : reads.flatten = r.head ++ rest)
    : ∃ start reads', (arrived r.head.length [] reads).drop r.head.length = start ∧ (∀ c ∈ reads', c ≠ [])
      ∧ start ++ reads'.flatten = rest
      ∧ respond toLowercase platform reads = .ok (buildResponse platform (readOf r start reads')) := by
  obtain ⟨start, reads', harrived, hnil', hrest, heq⟩ := readResponse_eq hlower h hlen hnil hreads
  refine ⟨start, reads', ?_, hnil', hrest, ?_⟩
  . rw [harrived, List.drop_left]
  . unfold respond
    rw [heq]
    rfl

/--
A response comes back as it should exactly when it is spared.
-/
theorem comesBack_iff (hlower : LowersAscii toLowercase) {r : Response} (h : r.WellFormed)
    (hlen : r.head.length ≤ 65536) {reads : List Bytes} (hnil : ∀ c ∈ reads, c ≠ []) (platform : Platform)
    : ComesBack toLowercase platform r reads ↔ Spared platform r reads := by
  have hcomplete (hwire : reads.flatten = r.wire)
      : (∃ reply, respond toLowercase platform reads = .ok reply ∧ Unchanged platform r reply)
        ↔ Kept platform r reads := by
    obtain ⟨start, reads', hstart, hnil', hrest, heq⟩ := respond_of_head hlower h hlen hnil platform hwire
    have hiff := @unchanged_iff platform r h start reads'
    rw [bodyFrom_eq_iff h hnil' hrest] at hiff
    rw [heq]
    constructor
    . rintro ⟨reply, hok, hunchanged⟩
      cases hok
      obtain ⟨hfunction, ⟨hnames, hvalues⟩, hbody⟩ := hiff.mp hunchanged
      refine ⟨hnames, hvalues, hfunction, ?_⟩
      rw [hstart]
      exact hbody
    . rintro ⟨hnames, hvalues, hfunction, hbody⟩
      rw [hstart] at hbody
      exact ⟨_, rfl, hiff.mpr ⟨hfunction, ⟨hnames, hvalues⟩, hbody⟩⟩
  have hearly (hfront : reads.flatten <+: r.wire)
      : (∃ e, respond toLowercase platform reads = .error e) ↔ reads.flatten.length < r.head.length := by
    constructor
    . rintro ⟨e, he⟩
      by_contra hlong
      obtain ⟨rest, hrest⟩ := List.prefix_of_prefix_length_le (List.prefix_append r.head r.payload) hfront
        (Nat.le_of_not_lt hlong)
      obtain ⟨start, reads', -, -, -, heq⟩ :=
        respond_of_head hlower h hlen hnil platform hrest.symm
      rw [heq] at he
      cases he
    . intro hlt
      have hhead := List.prefix_of_prefix_length_le hfront (List.prefix_append r.head r.payload) hlt.le
      obtain ⟨e, he⟩ := @readHead_of_lt r h [] reads hhead hlt
      refine ⟨e, ?_⟩
      unfold respond readResponse
      rw [he]
      rfl
  constructor
  . rintro ⟨hfull, hshort⟩
    refine ⟨fun hwire => (hcomplete hwire).mp (hfull hwire), ?_⟩
    intro hfront hlt
    exact (hearly hfront).mp (hshort hfront hlt)
  . rintro ⟨hfull, hshort⟩
    refine ⟨fun hwire => (hcomplete hwire).mpr (hfull hwire), ?_⟩
    intro hfront hlt
    exact (hearly hfront).mpr (hshort hfront hlt)

end

/-! ## A greeting with cookies -/

theorem isTrimmedText_solid {value : Bytes} (h : ∀ b ∈ value, 33 ≤ b.toNat ∧ b.toNat < 127)
    : IsTrimmedText value := by
  rw [isTrimmedText_iff, fromUtf8Lossy_ascii h, bytes_chars]
  intro b hb
  have := h b hb
  omega

def cookie (value : Bytes) : Http.Wire.Field :=
  { name := bytes "Set-Cookie", before := [32], value, after := [] }

def greeting (values : List Bytes) : Response :=
  {
    status := 200
    reason := bytes "OK"
    fields := { name := bytes "Content-Length", before := [32], value := bytes "2", after := [] } :: values.map cookie
    framing := .length
    body := bytes "hi"
  }

def greetingPlatform : Platform :=
  { requestId := ⟨0⟩, functionName := "hello", coldStart := false, durationMs := 3 }

theorem greeting_bytes
    : isToken (bytes "Content-Length") = true ∧ isToken (bytes "Set-Cookie") = true
      ∧ (bytes "OK").all isFieldByte = true ∧ (bytes "2").all isFieldByte = true
      ∧ Http.Wire.trimOws (bytes "2") = bytes "2" ∧ (bytes "2").all Http.Wire.isDigit = true ∧ bytes "2" ≠ []
      ∧ Http.Wire.digitsValue (bytes "2") = (bytes "hi").length
      ∧ (bytes "Content-Length").map lowerByte = Http.Wire.contentLength
      ∧ (bytes "Set-Cookie").map lowerByte ≠ Http.Wire.contentLength
      ∧ (bytes "Set-Cookie").map lowerByte ≠ Http.Wire.transferEncoding
      ∧ Http.Wire.contentLength ≠ Http.Wire.transferEncoding := by
  decide

theorem lowersAscii_toLower : LowersAscii (List.map Char.toLower) :=
  fun _ _ => rfl

theorem greeting_wellFormed {values : List Bytes}
    (h : ∀ v ∈ values, v.all isFieldByte = true ∧ Http.Wire.trimOws v = v) : (greeting values).WellFormed := by
  obtain ⟨hlength, hcookie, hreason, htwo, htrim, hdigit, hne, hvalue, hlower, hcl, hte, hclte⟩ := greeting_bytes
  have hows : ∀ b ∈ ([32] : Bytes), Http.Wire.isOws b = true := List.all_eq_true.mp (by decide)
  have hcookies {name : Bytes} (hname : (bytes "Set-Cookie").map lowerByte ≠ name)
      : valuesOf name ((values.map cookie).map Http.Wire.Field.pair) = [] := by
    rw [Http.Wire.valuesOf_eq_nil]
    intro p hp
    rw [List.map_map] at hp
    obtain ⟨v, -, rfl⟩ := List.mem_map.mp hp
    exact hname
  have hpairs : (greeting values).pairs
      = (Http.Wire.contentLength, bytes "2") :: (values.map cookie).map Http.Wire.Field.pair := by
    rw [← hlower]
    rfl
  constructor
  case status =>
    change 100 ≤ 200 ∧ 200 ≤ 999
    decide
  case reason => exact List.all_eq_true.mp hreason
  case fields =>
    intro f hf
    unfold greeting at hf
    rw [List.mem_cons] at hf
    cases hf with
    | inl heq =>
      subst heq
      exact ⟨hlength, hows, List.all_eq_true.mp htwo, htrim, nofun⟩
    | inr hmem =>
      obtain ⟨v, hv, rfl⟩ := List.mem_map.mp hmem
      obtain ⟨hall, htrim'⟩ := h v hv
      exact ⟨hcookie, hows, List.all_eq_true.mp hall, htrim', nofun⟩
  case framed =>
    change (∃ digits, valuesOf Http.Wire.contentLength (greeting values).pairs = [digits] ∧ digits ≠ []
      ∧ (∀ b ∈ digits, Http.Wire.isDigit b = true) ∧ Http.Wire.digitsValue digits = (bytes "hi").length)
      ∧ valuesOf Http.Wire.transferEncoding (greeting values).pairs = []
    rw [hpairs, Http.Wire.valuesOf_cons, Http.Wire.valuesOf_cons, hcookies hcl, hcookies hte]
    refine ⟨⟨bytes "2", ?_, hne, List.all_eq_true.mp hdigit, hvalue⟩, ?_⟩
    . simp
    . simp [hclte]
  case bodyless =>
    intro hbodyless
    cases hbodyless

/--
With one cookie, in two reads.
-/
theorem greeting_comesBack
    : ComesBack (List.map Char.toLower) greetingPlatform (greeting [bytes "a=1"])
        [(greeting [bytes "a=1"]).wire.take 20, (greeting [bytes "a=1"]).wire.drop 20] := by
  have hlen : (greeting [bytes "a=1"]).head.length ≤ 65536 := by decide
  have hvalues : ∀ v ∈ [bytes "a=1"], v.all isFieldByte = true ∧ Http.Wire.trimOws v = v := by decide
  have hnil : ∀ c ∈ [(greeting [bytes "a=1"]).wire.take 20, (greeting [bytes "a=1"]).wire.drop 20], c ≠ [] := by
    decide
  apply (comesBack_iff lowersAscii_toLower (greeting_wellFormed hvalues) hlen hnil greetingPlatform).mpr
  constructor
  case complete =>
    intro _
    constructor
    case names => decide
    case values =>
      intro p hp _
      apply isTrimmedText_solid
      have hall : (greeting [bytes "a=1"]).pairs.all
          (fun p => p.2.all (fun b => decide (33 ≤ b.toNat ∧ b.toNat < 127))) = true := by decide
      intro b hb
      have := List.all_eq_true.mp (List.all_eq_true.mp hall p hp) b hb
      exact of_decide_eq_true this
    case function => exact List.all_eq_true.mp (by decide)
    case chunked => exact nofun
  case early =>
    intro _ hlt
    have : (greeting [bytes "a=1"]).least = (greeting [bytes "a=1"]).wire.length := rfl
    rw [this] at hlt
    simp at hlt

/--
A response that breaks off before its last byte is passed on, and of two cookies one is lost.
-/
theorem greeting_damaged
    : ¬ ComesBack (List.map Char.toLower) greetingPlatform (greeting [bytes "a=1"])
          [(greeting [bytes "a=1"]).wire.dropLast]
      ∧ ¬ ComesBack (List.map Char.toLower) greetingPlatform (greeting [bytes "a=1", bytes "b=2"])
          [(greeting [bytes "a=1", bytes "b=2"]).wire] := by
  constructor
  . intro h
    have hvalues : ∀ v ∈ [bytes "a=1"], v.all isFieldByte = true ∧ Http.Wire.trimOws v = v := by decide
    have hlen : (greeting [bytes "a=1"]).head.length ≤ 65536 := by decide
    have hnil : ∀ c ∈ [(greeting [bytes "a=1"]).wire.dropLast], c ≠ [] := by decide
    have hreads : [(greeting [bytes "a=1"]).wire.dropLast].flatten = (greeting [bytes "a=1"]).head ++ bytes "h" := by
      decide
    obtain ⟨_, _, -, -, -, hok⟩ :=
      respond_of_head lowersAscii_toLower (greeting_wellFormed hvalues) hlen hnil greetingPlatform hreads
    obtain ⟨e, he⟩ := h.early (by decide) (by decide)
    rw [hok] at he
    cases he
  . intro h
    have hvalues : ∀ v ∈ [bytes "a=1", bytes "b=2"], v.all isFieldByte = true ∧ Http.Wire.trimOws v = v := by
      decide
    have hlen : (greeting [bytes "a=1", bytes "b=2"]).head.length ≤ 65536 := by decide
    have hnil : ∀ c ∈ [(greeting [bytes "a=1", bytes "b=2"]).wire], c ≠ [] := by decide
    have hwire : [(greeting [bytes "a=1", bytes "b=2"]).wire].flatten = (greeting [bytes "a=1", bytes "b=2"]).wire :=
      List.append_nil _
    have hwellFormed := greeting_wellFormed hvalues
    obtain ⟨start, reads', -, -, -, hok⟩ :=
      respond_of_head lowersAscii_toLower hwellFormed hlen hnil greetingPlatform hwire
    obtain ⟨reply, hreply, hunchanged⟩ := h.complete hwire
    rw [hok] at hreply
    cases hreply
    have hnames := ((unchanged_iff hwellFormed start reads').mp hunchanged).2.1.1
    revert hnames
    decide

end Reactor.Functions.Response
