import ReactorCloud.Functions.Invoke

/-!
This module contains when the text on the socket of a function is the request of the caller. It is put
together by formatting alone, and the function takes it apart by the grammar of HTTP/1.1.
-/

namespace Reactor.Functions

open Rust (Uuid HashMap)
open Rust.Str (bytes bytes_append bytes_inj jsonString joinWith)
open Http.Wire (Bytes isToken isFieldByte isPathByte trimOws parseRequest unlines numeral valuesOf)

/-! ## What the function should see -/

/--
The names that the fields `Connection` list.
-/
def nominated (headers : List HeaderField) : List Bytes :=
  (headers.filter (·.name == "connection")).flatMap fun f =>
    (f.value.splitOn 44).map (fun option => (trimOws option).map Http.Wire.lowerByte)

/--
The headers that are meant for the function and not for the next hop.
-/
def endToEnd (headers : List HeaderField) : List HeaderField :=
  headers.filter fun f => f.name ∉ hopByHop ∧ bytes f.name ∉ nominated headers

/--
Those of them that are not replaced.
-/
def forwarded (headers : List HeaderField) : List HeaderField :=
  (endToEnd headers).filter (·.name ∉ ["authorization", "content-length", "x-reactor-auth"])

def fieldPair (f : HeaderField) : Bytes × Bytes :=
  (bytes f.name, trimOws f.value)

/--
The request is the one of the caller, with the context in place of the authorization.
-/
structure Conveys (handle : DeploymentHandle) (ctx : InvokeCtx) (caller : CallerRequest)
    (r : Http.Wire.Request) : Prop where
  method : r.method = bytes caller.method.text
  path : r.path = bytes (outPath (caller.rest.getD ""))
  query : r.query = caller.query.map bytes
  body : r.body = caller.body
  fields : r.fields.Perm
    ((Http.Wire.host, bytes handle.functionName)
      :: (bytes "x-reactor-auth", bytes (reactorAuth ctx))
      :: (Http.Wire.contentLength, numeral caller.body.length)
      :: (forwarded caller.headers).map fieldPair)

/--
Whatever order the map of the headers has, the text is one request, and the right one.
-/
def Delivers (handle : DeploymentHandle) (limits : Limits) (ctx : InvokeCtx) (caller : CallerRequest)
    (newId : Uuid) : Prop :=
  ∀ request, buildIncomingRequest caller ctx limits = .ok request →
    ∀ headers, headers.Perm request.headers →
      ∃ r, parseRequest (written handle newId { request.toIncomingRequest with headers := headers })
          = some (r, [])
        ∧ Conveys handle ctx caller r

/--
The stated length is over the limit.
-/
def TooLarge (limits : Limits) (caller : CallerRequest) : Prop :=
  ∃ len, contentLength caller.headers = some len ∧ limits.maxBodyInBytes < len

/--
The headers can be kept in a map and written again. No header that goes on is one that is written anyway
or one of the connection.
-/
structure HeadersPlain (ctx : InvokeCtx) (headers : List HeaderField) : Prop where
  kept : ∀ f ∈ headers, (keepHeader f).isSome = true → f.name ≠ "x-reactor-auth" →
    f.name ≠ "content-length" ∧ bytes f.name ∉ nominated headers
  text : ∀ f ∈ forwarded headers, isText f.value = true
  once : ((forwarded headers).map (·.name)).Nodup
  requestId : ∃ f ∈ forwarded headers,
    f.name = "x-request-id" ∧ trimOws f.value = bytes ctx.requestId.hyphenated

/--
The parts of the request can stand in the text as they are.
-/
structure Plain (handle : DeploymentHandle) (ctx : InvokeCtx) (caller : CallerRequest) : Prop
    extends HeadersPlain ctx caller.headers where
  query : caller.query = none
  path : ∀ b ∈ bytes (outPath (caller.rest.getD "")), isPathByte b = true
  name : (∀ b ∈ bytes handle.functionName, isFieldByte b = true)
    ∧ trimOws (bytes handle.functionName) = bytes handle.functionName
  permissions : ∀ p ∈ ctx.auth.permissions, '\x7f' ∉ p.toList
  host : ∀ f ∈ forwarded caller.headers, f.name ≠ "host"

def entryPair (e : Σ _ : String, String) : Bytes × Bytes :=
  (bytes e.1, trimOws (bytes e.2))

/-! ## The text -/

section Text

variable {handle : DeploymentHandle} {newId : Uuid}

/--
The line of the host as a name and a value.
-/
def hostPair (handle : DeploymentHandle) : Bytes × Bytes :=
  (bytes "Host", bytes handle.functionName)

def headerPair (header : String × String) : Bytes × Bytes :=
  (bytes header.1, bytes header.2)

def lengthPair (body : Bytes) : Bytes × Bytes :=
  (Http.Wire.contentLength, numeral body.length)

theorem bytes_repr (n : Nat) : bytes (Nat.repr n) = numeral n := by
  have hdigits : ∀ cs : List Char, (∀ c ∈ cs, c.isDigit = true) →
      cs.flatMap String.utf8EncodeChar = cs.map (fun c => UInt8.ofNat c.toNat) := by
    intro cs h
    induction cs with
    | nil => rfl
    | cons c cs ih =>
      have := (Http.Wire.toNat_digit (h c List.mem_cons_self)).2.2
      rw [List.flatMap_cons, ih (fun c hc => h c (List.mem_cons_of_mem _ hc)),
        Rust.Str.utf8EncodeChar_ascii (by omega)]
      rfl
  rw [Nat.repr, Rust.Str.bytes_ofList, numeral, hdigits]
  exact fun c hc => Nat.isDigit_of_mem_toDigits (by decide) (by decide) hc

theorem bytes_writing
    : bytes ": " = [58, 32] ∧ bytes "\r\n" = [13, 10] ∧ bytes " " = [32]
      ∧ bytes " HTTP/1.1\r\nHost: " = 32 :: (Http.Wire.version ++ 13 :: 10 :: (bytes "Host" ++ [58, 32]))
      ∧ bytes "content-length: " = Http.Wire.contentLength ++ [58, 32]
      ∧ bytes "\x7b\"user_id\":" = 123 :: bytes "\"user_id\":" ∧ bytes "]\x7d" = [93, 125]
      ∧ bytes "/" = [47] := by
  decide

theorem isToken_own
    : isToken (bytes "Host") = true ∧ isToken Http.Wire.contentLength = true
      ∧ ∀ name ∈ ["x-request-id", "x-reactor-auth"],
        isToken (bytes name) = true ∧ (bytes name).map Http.Wire.lowerByte = bytes name := by
  decide

theorem bytes_names
    : bytes "host" = Http.Wire.host ∧ bytes "content-length" = Http.Wire.contentLength
      ∧ bytes "transfer-encoding" = Http.Wire.transferEncoding
      ∧ (bytes "Host").map Http.Wire.lowerByte = Http.Wire.host
      ∧ Http.Wire.contentLength.map Http.Wire.lowerByte = Http.Wire.contentLength
      ∧ (bytes "x-reactor-auth" == Http.Wire.host) = false
      ∧ (bytes "x-reactor-auth" == Http.Wire.contentLength) = false
      ∧ (bytes "x-reactor-auth" == Http.Wire.transferEncoding) = false := by
  decide

theorem headerLines_eq (headers : List (String × String))
    : headerLines headers = unlines (headers.map (fun h => Http.Wire.fieldLine (headerPair h))) := by
  have ⟨hsep, hbreak, _⟩ := bytes_writing
  unfold headerLines unlines
  rw [List.flatMap_map]
  congr 1
  funext h
  simp [bytes_append, hsep, hbreak, Http.Wire.fieldLine, headerPair]

/--
A request that has its id is written as its lines.
-/
theorem written_eq {request : IncomingRequest} {body : Bytes} (hbody : request.body = some body)
    (hid : request.headers.any (·.1 == "x-request-id") = true)
    : written handle newId request
        =
      unlines ((bytes request.method ++ 32 :: (bytes request.path ++ 32 :: Http.Wire.version))
        :: (hostPair handle :: (request.headers.map headerPair ++ [lengthPair body])).map
          Http.Wire.fieldLine)
        ++ 13 :: 10 :: body := by
  have ⟨_, hbreak, hspace, hversion, hlength, _⟩ := bytes_writing
  have hline : ∀ k v : Bytes, Http.Wire.fieldLine (k, v) = k ++ 58 :: 32 :: v := fun _ _ => rfl
  rw [written, hbody, hid, headerLines_eq, if_pos rfl]
  simp only [bytes_append, hspace, hversion, hlength, hbreak, bytes_repr, Http.Wire.unlines_cons,
    List.map_cons, List.map_append, List.map_map, Http.Wire.unlines_append, hostPair, lengthPair,
    hline, List.map_nil, Option.getD_some, List.append_assoc, List.cons_append, List.nil_append]
  rfl

end Text

/-! ## Headers -/

section Headers

variable {ctx : InvokeCtx} {headers : List HeaderField}

theorem isFieldByte_of_toNat {b : UInt8} (hlow : 32 ≤ b.toNat) (hdel : b.toNat ≠ 127)
    : isFieldByte b = true := by
  have hb : b ≠ 127 := fun h => hdel (by rw [h]; rfl)
  simp only [isFieldByte, Http.Wire.isOws, Bool.or_eq_true, beq_iff_eq, Bool.and_eq_true,
    decide_eq_true_eq, bne_iff_ne]
  by_cases heq : b.toNat = 32
  . exact .inl (.inr (UInt8.toNat_inj.mp heq))
  . refine .inr ⟨?_, hb⟩
    rw [UInt8.le_iff_toNat_le]
    show 33 ≤ b.toNat
    omega

theorem isText_byte {b : UInt8} (h : (b == 9 || (32 ≤ b && b < 127)) = true)
    : b.toNat < 128 ∧ b ≠ 13 ∧ isFieldByte b = true := by
  simp only [Bool.or_eq_true, beq_iff_eq, Bool.and_eq_true, decide_eq_true_eq] at h
  rcases h with rfl | ⟨hlow, hhigh⟩
  . decide
  . rw [UInt8.le_iff_toNat_le] at hlow
    rw [UInt8.lt_iff_toNat_lt] at hhigh
    refine ⟨Nat.lt_succ_of_lt hhigh, ?_, isFieldByte_of_toNat hlow (Nat.ne_of_lt hhigh)⟩
    rintro rfl
    exact absurd hlow (by decide)

theorem bytes_toStr {value : Bytes} {text : String} (h : toStr value = some text)
    : bytes text = value ∧ isText value = true := by
  rw [toStr] at h
  split at h
  . next htext =>
    cases h
    refine ⟨Rust.Str.bytes_ascii ?_, htext⟩
    intro b hb
    exact (isText_byte (List.all_eq_true.mp htext b hb)).1
  . cases h

theorem keepHeader_eq_some {f : HeaderField} {e : Σ _ : String, String} (h : keepHeader f = some e)
    : e.1 = f.name ∧ bytes e.2 = f.value ∧ isText f.value = true ∧ f.name ∉ hopByHop
      ∧ f.name ≠ "authorization" := by
  unfold keepHeader at h
  split at h
  . cases h
  split at h
  . cases h
  next hhop hauth =>
  rw [Option.map_eq_some_iff] at h
  obtain ⟨text, htext, rfl⟩ := h
  exact ⟨rfl, (bytes_toStr htext).1, (bytes_toStr htext).2, hhop, hauth⟩

theorem isSome_keepHeader {f : HeaderField}
    : (keepHeader f).isSome = true
        ↔
      isText f.value = true ∧ f.name ∉ hopByHop ∧ f.name ≠ "authorization" := by
  unfold keepHeader
  split
  . next h => simp [h]
  split
  . next h => simp [h]
  next hhop hauth =>
  rw [Option.isSome_map, toStr]
  split
  . next htext => simp [htext, hhop, hauth]
  . next htext => simp [htext]

/--
An entry is the text of a header, the context or the id of the request.
-/
theorem mem_outHeaders {name text : String} (h : ⟨name, text⟩ ∈ (outHeaders ctx headers).entries)
    : (name = "x-request-id" ∧ text = ctx.requestId.hyphenated)
      ∨ (name = "x-reactor-auth" ∧ text = reactorAuth ctx)
      ∨ name ≠ "x-request-id" ∧ name ≠ "x-reactor-auth"
        ∧ ∃ f ∈ headers, keepHeader f = some ⟨name, text⟩ := by
  rw [← AList.mem_lookup_iff, outHeaders] at h
  by_cases hid : name = "x-request-id"
  . subst hid
    rw [AList.lookup_insert] at h
    cases h
    exact .inl ⟨rfl, rfl⟩
  . rw [AList.lookup_insert_ne hid] at h
    by_cases hauth : name = "x-reactor-auth"
    . subst hauth
      rw [AList.lookup_insert] at h
      cases h
      exact .inr (.inl ⟨rfl, rfl⟩)
    . rw [AList.lookup_insert_ne hauth] at h
      cases HashMap.lookup_extend_cases h with
      | inl hmem =>
        obtain ⟨f, hf, hkeep⟩ := List.mem_filterMap.mp hmem
        exact .inr (.inr ⟨hid, hauth, f, hf, hkeep⟩)
      | inr hempty =>
        rw [AList.lookup_empty] at hempty
        cases hempty

theorem bytes_hyphenated {id : Uuid} {b : UInt8} (h : b ∈ bytes id.hyphenated)
    : 45 ≤ b.toNat ∧ b.toNat ≤ 102 := by
  have hchars : ∀ c ∈ "-0123456789abcdef".toList, 45 ≤ c.toNat ∧ c.toNat ≤ 102 :=
    List.all_iff_forall_prop.mp (by decide)
  rw [Rust.Str.bytes_eq] at h
  obtain ⟨c, hc, hb⟩ := List.mem_flatMap.mp h
  have := hchars c (Rust.Uuid.mem_hyphenated hc)
  rw [Rust.Str.utf8EncodeChar_ascii (by omega), List.mem_singleton] at hb
  rw [hb, UInt8.toNat_ofNat']
  omega

theorem trimOws_hyphenated (id : Uuid) : trimOws (bytes id.hyphenated) = bytes id.hyphenated := by
  have hows : ∀ b ∈ bytes id.hyphenated, Http.Wire.isOws b = false := by
    intro b hb
    have := bytes_hyphenated hb
    simp only [Http.Wire.isOws, Bool.or_eq_false_iff, beq_eq_false_iff_ne]
    constructor
    . rintro rfl
      exact absurd this.1 (by decide)
    . rintro rfl
      exact absurd this.1 (by decide)
  apply Http.Wire.trimOws_eq_self
  . intro b hb
    exact hows b (List.mem_of_mem_head? hb)
  . intro b hb
    exact hows b (List.mem_of_getLast? hb)

theorem mem_append_iff {c : Char} {s t : String}
    : c ∈ (s ++ t).toList ↔ c ∈ s.toList ∨ c ∈ t.toList := by
  rw [String.toList_append, List.mem_append]

/--
The characters of the context are those that JSON leaves as they are.
-/
theorem mem_reactorAuth {c : Char} (h : c ∈ (reactorAuth ctx).toList)
    : 32 ≤ c.toNat ∧ (c.toNat = 127 → ∃ p ∈ ctx.auth.permissions, c ∈ p.toList) := by
  have hplain : ∀ s ∈ ["\x7b\"user_id\":", "null", ",\"org_id\":", ",\"permissions\":[", ",", "]\x7d"],
      s.toList.all (fun c => decide (32 ≤ c.toNat ∧ c.toNat ≠ 127)) = true := by
    decide
  replace hplain := fun s hs => List.all_iff_forall_prop.mp (hplain s hs)
  have hfixed : ∀ {c : Char}, 32 ≤ c.toNat ∧ c.toNat ≠ 127 →
      32 ≤ c.toNat ∧ (c.toNat = 127 → ∃ p ∈ ctx.auth.permissions, c ∈ p.toList) :=
    fun h => ⟨h.1, fun heq => absurd heq h.2⟩
  have huuid : ∀ {id : Uuid} {c : Char}, c ∈ (jsonString id.hyphenated).toList →
      32 ≤ c.toNat ∧ c.toNat ≠ 127 := by
    intro id c hc
    have hjson := Rust.Str.mem_jsonString hc
    refine ⟨hjson.1, fun heq => ?_⟩
    have hchars : ∀ c ∈ "-0123456789abcdef".toList, c.toNat ≠ 127 :=
      List.all_iff_forall_prop.mp (by decide)
    exact hchars c (Rust.Uuid.mem_hyphenated (hjson.2 heq)) heq
  delta reactorAuth at h
  simp only [mem_append_iff] at h
  rcases h with (((((h | h) | h) | h) | h) | h) | h
  . exact hfixed (hplain _ (by simp) c h)
  . cases hid : ctx.userId with
    | none =>
      rw [hid] at h
      exact hfixed (hplain "null" (by simp) c h)
    | some id =>
      rw [hid] at h
      exact hfixed (huuid h)
  . exact hfixed (hplain _ (by simp) c h)
  . exact hfixed (huuid h)
  . exact hfixed (hplain _ (by simp) c h)
  . cases Rust.Str.mem_joinWith h with
    | inl hsep => exact hfixed (hplain _ (by simp) c hsep)
    | inr hjson =>
      obtain ⟨text, htext, hc⟩ := hjson
      obtain ⟨p, hp, rfl⟩ := List.mem_map.mp htext
      have := Rust.Str.mem_jsonString hc
      exact ⟨this.1, fun heq => ⟨p, hp, this.2 heq⟩⟩
  . exact hfixed (hplain _ (by simp) c h)

theorem del_mem_reactorAuth {p : String} (hp : p ∈ ctx.auth.permissions) (h : '\x7f' ∈ p.toList)
    : '\x7f' ∈ (reactorAuth ctx).toList := by
  delta reactorAuth
  rw [mem_append_iff, mem_append_iff]
  refine .inl (.inr ?_)
  exact Rust.Str.mem_joinWith_of_mem (List.mem_map_of_mem hp) (Rust.Str.del_mem_jsonString h)

/--
The context is a value unless a permission has a DEL in it.
-/
theorem all_reactorAuth
    : (∀ b ∈ bytes (reactorAuth ctx), isFieldByte b = true)
        ↔
      ∀ p ∈ ctx.auth.permissions, '\x7f' ∉ p.toList := by
  constructor
  . intro hall p hp hdel
    have := hall _ (Rust.Str.mem_bytes_of_mem (del_mem_reactorAuth hp hdel) (by decide))
    exact absurd this (by decide)
  . intro hpermissions b hb
    by_cases hascii : b.toNat < 128
    . obtain ⟨c, hc, hval⟩ := Rust.Str.exists_mem_of_mem_bytes hb hascii
      obtain ⟨hlow, hdel⟩ := mem_reactorAuth hc
      apply isFieldByte_of_toNat (by omega)
      intro heq
      obtain ⟨p, hp, hmem⟩ := hdel (by omega)
      apply hpermissions p hp
      rwa [show c = '\x7f' from Char.toNat_inj.mp (by rw [← hval, heq]; rfl)] at hmem
    . exact isFieldByte_of_toNat (by omega) (by omega)

theorem trimOws_reactorAuth : trimOws (bytes (reactorAuth ctx)) = bytes (reactorAuth ctx) := by
  have ⟨_, _, _, _, _, hstart, hstop, _⟩ := bytes_writing
  have hhead : (bytes (reactorAuth ctx)).head? = some 123 := by
    delta reactorAuth
    simp only [bytes_append, hstart, List.cons_append, List.head?_cons]
  have hlast : (bytes (reactorAuth ctx)).getLast? = some 125 := by
    delta reactorAuth
    rw [bytes_append, hstop, List.getLast?_append_of_ne_nil _ (by simp)]
    rfl
  apply Http.Wire.trimOws_eq_self
  . intro b hb
    rw [hhead] at hb
    cases hb
    decide
  . intro b hb
    rw [hlast] at hb
    cases hb
    decide

theorem mem_forwarded {f : HeaderField}
    : f ∈ forwarded headers
        ↔
      f ∈ headers ∧ f.name ∉ hopByHop ∧ bytes f.name ∉ nominated headers
        ∧ f.name ≠ "authorization" ∧ f.name ≠ "content-length" ∧ f.name ≠ "x-reactor-auth" := by
  simp only [forwarded, endToEnd, List.mem_filter, decide_eq_true_eq, List.mem_cons, List.not_mem_nil,
    or_false, not_or]
  tauto

theorem isText_of_trimOws {value : Bytes} (h : isText (trimOws value) = true) : isText value = true := by
  rw [isText, List.all_eq_true] at h ⊢
  intro b hb
  cases Http.Wire.mem_or_isOws hb with
  | inl hmem => exact h b hmem
  | inr hows =>
    simp only [Http.Wire.isOws, Bool.or_eq_true, beq_iff_eq] at hows
    rcases hows with rfl | rfl <;> decide

/--
The entry of a key in the map, when the key comes from a header or is written anyway.
-/
theorem exists_mem_outHeaders {f : HeaderField} (hf : f ∈ headers) (h : (keepHeader f).isSome = true)
    : ∃ text, ⟨f.name, text⟩ ∈ (outHeaders ctx headers).entries := by
  have hsome : ((outHeaders ctx headers).lookup f.name).isSome = true := by
    rw [outHeaders]
    by_cases hid : f.name = "x-request-id"
    . rw [hid, AList.lookup_insert]
      rfl
    rw [AList.lookup_insert_ne hid]
    by_cases hauth : f.name = "x-reactor-auth"
    . rw [hauth, AList.lookup_insert]
      rfl
    rw [AList.lookup_insert_ne hauth]
    apply HashMap.isSome_lookup_extend
    obtain ⟨e, he⟩ := Option.isSome_iff_exists.mp h
    left
    rw [← (keepHeader_eq_some he).1]
    exact List.mem_keys_of_mem (List.mem_filterMap.mpr ⟨f, hf, he⟩)
  obtain ⟨text, htext⟩ := Option.isSome_iff_exists.mp hsome
  exact ⟨text, AList.mem_lookup_iff.mp htext⟩

/--
The entries are the headers to be forwarded and the context.
-/
def EntriesMatch (ctx : InvokeCtx) (headers : List HeaderField) : Prop :=
  ((outHeaders ctx headers).entries.map entryPair).Perm
    ((bytes "x-reactor-auth", bytes (reactorAuth ctx)) :: (forwarded headers).map fieldPair)

theorem EntriesMatch.plain (h : EntriesMatch ctx headers) : HeadersPlain ctx headers := by
  have hforwarded : ∀ {name text : String}, ⟨name, text⟩ ∈ (outHeaders ctx headers).entries →
      name ≠ "x-reactor-auth" →
      ∃ f ∈ forwarded headers, f.name = name ∧ trimOws f.value = trimOws (bytes text) := by
    intro name text hmem hname
    cases List.mem_cons.mp (h.subset (List.mem_map_of_mem hmem)) with
    | inl heq => exact absurd (bytes_inj (congrArg Prod.fst heq)) hname
    | inr hin =>
      obtain ⟨f, hf, heq⟩ := List.mem_map.mp hin
      exact ⟨f, hf, bytes_inj (congrArg Prod.fst heq), congrArg Prod.snd heq⟩
  constructor
  . intro f hf hkeep hname
    obtain ⟨text, hmem⟩ := @exists_mem_outHeaders ctx headers f hf hkeep
    obtain ⟨g, hg, heq, _⟩ := hforwarded hmem hname
    have hg := mem_forwarded.mp hg
    rw [heq] at hg
    exact ⟨hg.2.2.2.2.1, hg.2.2.1⟩
  . intro f hf
    have hmem := h.symm.subset (List.mem_cons_of_mem _ (List.mem_map_of_mem hf))
    obtain ⟨⟨name, text⟩, he, heq⟩ := List.mem_map.mp hmem
    have hname : name = f.name := bytes_inj (congrArg Prod.fst heq)
    have hvalue : trimOws (bytes text) = trimOws f.value := congrArg Prod.snd heq
    apply isText_of_trimOws
    rw [← hvalue, isText, List.all_eq_true]
    intro b hb
    have hb := Http.Wire.mem_trimOws hb
    rcases mem_outHeaders he with ⟨_, rfl⟩ | ⟨hauth, _⟩ | ⟨_, _, g, _, hkeep⟩
    . have := bytes_hyphenated hb
      simp only [Bool.or_eq_true, Bool.and_eq_true, decide_eq_true_eq, UInt8.le_iff_toNat_le,
        UInt8.lt_iff_toNat_lt]
      exact .inr ⟨Nat.le_trans (by decide) this.1, Nat.lt_of_le_of_lt this.2 (by decide)⟩
    . rw [hname] at hauth
      exact absurd hauth (mem_forwarded.mp hf).2.2.2.2.2
    . obtain ⟨_, hbytes, htext, _⟩ := keepHeader_eq_some hkeep
      rw [hbytes] at hb
      exact List.all_eq_true.mp htext b hb
  . have hkeys := (outHeaders ctx headers).nodupKeys
    have hnames : ((outHeaders ctx headers).entries.map entryPair).map Prod.fst
        = (outHeaders ctx headers).entries.keys.map bytes := by
      simp [List.keys, entryPair]
    have hnodup := (h.map Prod.fst).nodup_iff.mp
      (by rw [hnames]; exact hkeys.map (fun _ _ => bytes_inj))
    rw [List.map_cons, List.nodup_cons, List.map_map] at hnodup
    apply List.Nodup.of_map bytes
    rw [List.map_map]
    exact hnodup.2
  . have hid : ⟨"x-request-id", ctx.requestId.hyphenated⟩ ∈ (outHeaders ctx headers).entries := by
      rw [← AList.mem_lookup_iff, outHeaders, AList.lookup_insert]
      rfl
    obtain ⟨f, hf, hname, hvalue⟩ := hforwarded hid (by decide)
    exact ⟨f, hf, hname, hvalue.trans (trimOws_hyphenated _)⟩

/--
The text of a header as it is sent. There is only one id of the request.
-/
def sentText (ctx : InvokeCtx) (f : HeaderField) : String :=
  if f.name = "x-request-id" then ctx.requestId.hyphenated else (toStr f.value).getD ""

theorem HeadersPlain.mem_forwarded (h : HeadersPlain ctx headers) {f : HeaderField} {name text : String}
    (hf : f ∈ headers) (hkeep : keepHeader f = some ⟨name, text⟩) (hname : name ≠ "x-reactor-auth")
    : f ∈ forwarded headers ∧ f.name = name ∧ toStr f.value = some text := by
  obtain ⟨heq, hbytes, htext, hhop, hauth⟩ := keepHeader_eq_some hkeep
  have heq : name = f.name := heq
  subst heq
  obtain ⟨hlength, hnominated⟩ := h.kept f hf (by rw [hkeep]; rfl) hname
  refine ⟨Functions.mem_forwarded.mpr ⟨hf, hhop, hnominated, hauth, hlength, hname⟩, rfl, ?_⟩
  rw [toStr, if_pos htext]
  unfold keepHeader at hkeep
  rw [if_neg hhop, if_neg hauth, toStr, if_pos htext] at hkeep
  cases hkeep
  rfl

theorem HeadersPlain.mem_entries (h : HeadersPlain ctx headers) (name text : String)
    : ⟨name, text⟩ ∈ (outHeaders ctx headers).entries
        ↔
      (⟨name, text⟩ : Σ _ : String, String)
        ∈ ⟨"x-reactor-auth", reactorAuth ctx⟩ :: (forwarded headers).map (fun f => ⟨f.name, sentText ctx f⟩) := by
  rw [List.mem_cons]
  constructor
  . intro hmem
    rcases mem_outHeaders hmem with ⟨rfl, rfl⟩ | ⟨rfl, rfl⟩ | ⟨hid, hauth, f, hf, hkeep⟩
    . obtain ⟨f, hf, hname, _⟩ := h.requestId
      refine .inr (List.mem_map.mpr ⟨f, hf, ?_⟩)
      rw [sentText, if_pos hname, hname]
    . exact .inl rfl
    . obtain ⟨hforwarded, rfl, htext⟩ := h.mem_forwarded hf hkeep hauth
      refine .inr (List.mem_map.mpr ⟨f, hforwarded, ?_⟩)
      rw [sentText, if_neg hid, htext]
      rfl
  . rintro (heq | hmem)
    . cases heq
      rw [← AList.mem_lookup_iff, outHeaders, AList.lookup_insert_ne (by decide), AList.lookup_insert]
      rfl
    . obtain ⟨f, hf, heq⟩ := List.mem_map.mp hmem
      cases heq
      have hkeep : (keepHeader f).isSome = true := by
        have hmem := Functions.mem_forwarded.mp hf
        exact isSome_keepHeader.mpr ⟨h.text f hf, hmem.2.1, hmem.2.2.2.1⟩
      obtain ⟨text, hentry⟩ := @exists_mem_outHeaders ctx headers f (Functions.mem_forwarded.mp hf).1 hkeep
      -- the entry under this name cannot be one of another header
      rcases mem_outHeaders hentry with ⟨hid, rfl⟩ | ⟨hauth, _⟩ | ⟨hid, hauth, g, hg, hkeep⟩
      . rwa [sentText, if_pos hid]
      . exact absurd hauth (Functions.mem_forwarded.mp hf).2.2.2.2.2
      . obtain ⟨hforwarded, hname, htext⟩ := h.mem_forwarded hg hkeep hauth
        have heq : g = f := List.inj_on_of_nodup_map h.once hforwarded hf hname
        subst heq
        rw [sentText, if_neg hid, htext]
        exact hentry

theorem HeadersPlain.entriesMatch (h : HeadersPlain ctx headers) : EntriesMatch ctx headers := by
  have hkeys : List.keys ((forwarded headers).map
      (fun f => (⟨f.name, sentText ctx f⟩ : Σ _ : String, String)))
      = (forwarded headers).map (·.name) := by
    simp [List.keys]
  have hnodup : List.NodupKeys ((⟨"x-reactor-auth", reactorAuth ctx⟩ : Σ _ : String, String)
      :: (forwarded headers).map (fun f => ⟨f.name, sentText ctx f⟩)) := by
    rw [List.nodupKeys_cons, List.NodupKeys, hkeys]
    refine ⟨?_, h.once⟩
    intro hmem
    obtain ⟨f, hf, hname⟩ := List.mem_map.mp hmem
    exact (Functions.mem_forwarded.mp hf).2.2.2.2.2 hname
  have hperm := List.lookup_ext (outHeaders ctx headers).nodupKeys hnodup (by
    intro name text
    rw [List.mem_dlookup_iff (outHeaders ctx headers).nodupKeys, List.mem_dlookup_iff hnodup]
    exact h.mem_entries name text)
  unfold EntriesMatch
  apply (hperm.map entryPair).trans
  rw [List.map_cons, List.map_map, entryPair, trimOws_reactorAuth]
  apply List.Perm.of_eq
  congr 1
  apply List.map_congr_left
  intro f hf
  show (bytes f.name, trimOws (bytes (sentText ctx f))) = (bytes f.name, trimOws f.value)
  congr 1
  rw [sentText]
  split
  . next hid =>
    obtain ⟨g, hg, hname, hvalue⟩ := h.requestId
    have heq : g = f := List.inj_on_of_nodup_map h.once hg hf (hname.trans hid.symm)
    subst heq
    rw [hvalue, trimOws_hyphenated]
  . obtain ⟨text, htext⟩ : ∃ text, toStr f.value = some text := ⟨_, if_pos (h.text f hf)⟩
    rw [htext, Option.getD_some, (bytes_toStr htext).1]

end Headers

/-! ## Requests -/

section Requests

variable {handle : DeploymentHandle} {limits : Limits} {ctx : InvokeCtx} {caller : CallerRequest}
  {headers : List (String × String)}

def outEntries (ctx : InvokeCtx) (caller : CallerRequest) : List (String × String) :=
  (outHeaders ctx caller.headers).entries.map (fun e => (e.1, e.2))

/--
The request that the runtime gets if it gets one.
-/
def outRequest (caller : CallerRequest) (headers : List (String × String)) : IncomingRequest :=
  ⟨caller.method.text, outPath (caller.rest.getD ""), headers, some caller.body⟩

theorem buildIncomingRequest_cases
    : (TooLarge limits caller ∧ ∃ e, buildIncomingRequest caller ctx limits = .error e)
      ∨ (¬ TooLarge limits caller ∧ buildIncomingRequest caller ctx limits
        = .ok ⟨outRequest caller (outEntries ctx caller), caller.query, contentLength caller.headers⟩) := by
  unfold TooLarge buildIncomingRequest
  cases hlength : contentLength caller.headers with
  | none =>
    right
    refine ⟨nofun, rfl⟩
  | some len =>
    by_cases hlarge : limits.maxBodyInBytes < len
    . left
      refine ⟨⟨len, rfl, hlarge⟩, .requestBodyTooLarge len limits.maxBodyInBytes, ?_⟩
      simp only [if_pos hlarge]
      rfl
    . right
      constructor
      . rintro ⟨_, heq, hlt⟩
        cases heq
        exact hlarge hlt
      . simp only [if_neg hlarge]
        rfl

theorem mem_of_perm {name text : String} (hperm : headers.Perm (outEntries ctx caller))
    : (name, text) ∈ headers ↔ ⟨name, text⟩ ∈ (outHeaders ctx caller.headers).entries := by
  rw [hperm.mem_iff, outEntries, List.mem_map]
  constructor
  . rintro ⟨⟨n, t⟩, he, heq⟩
    cases heq
    exact he
  . intro he
    exact ⟨_, he, rfl⟩

theorem any_requestId (hperm : headers.Perm (outEntries ctx caller))
    : headers.any (·.1 == "x-request-id") = true := by
  rw [List.any_eq_true]
  refine ⟨("x-request-id", ctx.requestId.hyphenated), (mem_of_perm hperm).mpr ?_, by simp⟩
  rw [← AList.mem_lookup_iff, outHeaders, AList.lookup_insert]
  rfl

/--
The names and values of the headers cannot break a line.
-/
theorem headerPair_ok (hperm : headers.Perm (outEntries ctx caller)) {h : String × String}
    (hmem : h ∈ headers)
    : isToken (bytes h.1) = true ∧ (bytes h.1).map Http.Wire.lowerByte = bytes h.1
      ∧ 13 ∉ bytes h.2
      ∧ (h.1 ≠ "x-reactor-auth" → ∀ b ∈ bytes h.2, isFieldByte b = true) := by
  have ⟨_, _, hown⟩ := isToken_own
  obtain ⟨name, text⟩ := h
  rcases mem_outHeaders ((mem_of_perm hperm).mp hmem) with ⟨rfl, rfl⟩ | ⟨rfl, rfl⟩ | ⟨_, _, f, _, hkeep⟩
  . refine ⟨(hown _ (by simp)).1, (hown _ (by simp)).2, ?_, ?_⟩
    . intro hcr
      exact absurd (bytes_hyphenated hcr).1 (by decide)
    . intro _ b hb
      have := bytes_hyphenated hb
      exact isFieldByte_of_toNat (by omega) (by omega)
  . refine ⟨(hown _ (by simp)).1, (hown _ (by simp)).2, ?_, fun hne => absurd rfl hne⟩
    intro hcr
    obtain ⟨c, hc, hval⟩ := Rust.Str.exists_mem_of_mem_bytes hcr (by decide)
    have hlow := (mem_reactorAuth hc).1
    rw [← hval] at hlow
    exact absurd hlow (by decide)
  . obtain ⟨heq, hbytes, htext, _⟩ := keepHeader_eq_some hkeep
    have heq : name = f.name := heq
    subst heq
    have hall := List.all_eq_true.mp htext
    refine ⟨f.isName.1, f.isName.2, ?_, ?_⟩
    . intro hcr
      rw [hbytes] at hcr
      exact (isText_byte (hall _ hcr)).2.1 rfl
    . intro _ b hb
      rw [hbytes] at hb
      exact (isText_byte (hall b hb)).2.2

/--
The fields of the text.
-/
def sentPairs (handle : DeploymentHandle) (caller : CallerRequest) (headers : List (String × String))
    : List (Bytes × Bytes) :=
  hostPair handle :: (headers.map headerPair ++ [lengthPair caller.body])

theorem sentPairs_ok (hperm : headers.Perm (outEntries ctx caller))
    (hname : ∀ b ∈ bytes handle.functionName, isFieldByte b = true)
    : ∀ p ∈ sentPairs handle caller headers, isToken p.1 = true ∧ 13 ∉ p.2 := by
  have ⟨hhost, hlength, _⟩ := isToken_own
  intro p hp
  simp only [sentPairs, List.mem_cons, List.mem_append, List.mem_map, List.not_mem_nil, or_false] at hp
  rcases hp with rfl | ⟨h, hh, rfl⟩ | rfl
  . refine ⟨hhost, fun hcr => ?_⟩
    exact absurd (hname 13 hcr) (by decide)
  . have := headerPair_ok hperm hh
    exact ⟨this.1, this.2.2.1⟩
  . refine ⟨hlength, fun hcr => ?_⟩
    exact absurd (Http.Wire.isDigit_numeral hcr) (by decide)

theorem trimOws_numeral (n : Nat) : trimOws (numeral n) = numeral n := by
  have hows : ∀ b ∈ numeral n, Http.Wire.isOws b = false := by
    intro b hb
    have hdigit := Http.Wire.isDigit_numeral hb
    simp only [Http.Wire.isOws, Bool.or_eq_false_iff, beq_eq_false_iff_ne]
    constructor
    . rintro rfl
      cases hdigit
    . rintro rfl
      cases hdigit
  apply Http.Wire.trimOws_eq_self
  . intro b hb
    exact hows b (List.mem_of_mem_head? hb)
  . intro b hb
    exact hows b (List.mem_of_getLast? hb)

/--
What is read from the text, up to the order of the headers.
-/
theorem readFields_perm (hperm : headers.Perm (outEntries ctx caller))
    (hname : trimOws (bytes handle.functionName) = bytes handle.functionName)
    : ((sentPairs handle caller headers).map Http.Wire.readField).Perm
        ((Http.Wire.host, bytes handle.functionName)
          :: (Http.Wire.contentLength, numeral caller.body.length)
          :: (outHeaders ctx caller.headers).entries.map entryPair) := by
  have ⟨_, _, _, hhost, hlength, _⟩ := bytes_names
  have hentries : (headers.map headerPair).map Http.Wire.readField
      = headers.map (fun h => (bytes h.1, trimOws (bytes h.2))) := by
    rw [List.map_map]
    apply List.map_congr_left
    intro h hh
    show ((bytes h.1).map Http.Wire.lowerByte, _) = _
    rw [(headerPair_ok hperm hh).2.1]
    rfl
  have hsame : (headers.map (fun h => (bytes h.1, trimOws (bytes h.2)))).Perm
      ((outHeaders ctx caller.headers).entries.map entryPair) := by
    apply (hperm.map _).trans
    rw [outEntries, List.map_map]
    exact .refl _
  rw [sentPairs, List.map_cons, List.map_append, hentries]
  simp only [hostPair, lengthPair, Http.Wire.readField, hhost, hlength, hname, trimOws_numeral,
    List.map_cons, List.map_nil]
  apply List.Perm.cons
  apply List.perm_append_comm.trans
  apply List.Perm.cons
  exact hsame

theorem written_outRequest (hperm : headers.Perm (outEntries ctx caller)) (newId : Uuid)
    : written handle newId (outRequest caller headers)
        =
      unlines ((bytes caller.method.text
          ++ 32 :: (bytes (outPath (caller.rest.getD "")) ++ 32 :: Http.Wire.version))
        :: (sentPairs handle caller headers).map Http.Wire.fieldLine)
        ++ 13 :: 10 :: caller.body :=
  written_eq rfl (any_requestId hperm)

theorem outPath_slash (subpath : String) : (bytes (outPath subpath)).head? = some 47 := by
  have hslash : bytes "/" = [47] := bytes_writing.2.2.2.2.2.2.2
  unfold outPath
  split
  . rw [hslash]
    rfl
  split
  . next hhead =>
    cases hsub : subpath.toList with
    | nil =>
      rw [hsub] at hhead
      cases hhead
    | cons c cs =>
      rw [hsub] at hhead
      cases hhead
      rw [Rust.Str.bytes_eq, hsub]
      rfl
  . rw [bytes_append, hslash]
    rfl

/--
The values that the parser looks for in what is to be sent.
-/
theorem valuesOf_forwarded (hhost : ∀ f ∈ forwarded caller.headers, f.name ≠ "host")
    {fields : List (Bytes × Bytes)}
    (hfields : fields.Perm ((Http.Wire.host, bytes handle.functionName)
      :: (bytes "x-reactor-auth", bytes (reactorAuth ctx))
      :: (Http.Wire.contentLength, numeral caller.body.length)
      :: (forwarded caller.headers).map fieldPair))
    : (valuesOf Http.Wire.host fields).length = 1
      ∧ valuesOf Http.Wire.contentLength fields = [numeral caller.body.length]
      ∧ valuesOf Http.Wire.transferEncoding fields = [] := by
  have ⟨hhostName, hlengthName, hteName, _, _, hne⟩ := bytes_names
  have hother : ∀ name, (∀ f ∈ forwarded caller.headers, f.name ≠ name) →
      valuesOf (bytes name) ((forwarded caller.headers).map fieldPair) = [] := by
    intro name h
    rw [Http.Wire.valuesOf_eq_nil]
    intro p hp heq
    obtain ⟨f, hf, rfl⟩ := List.mem_map.mp hp
    exact h f hf (bytes_inj heq)
  have h1 := hother "host" hhost
  have h2 := hother "content-length" fun f hf => (mem_forwarded.mp hf).2.2.2.2.1
  have h3 := hother "transfer-encoding" (by
    intro f hf heq
    apply (mem_forwarded.mp hf).2.1
    rw [heq]
    decide)
  rw [hhostName] at h1
  rw [hlengthName] at h2
  rw [hteName] at h3
  refine ⟨?_, List.perm_singleton.mp ?_, List.perm_nil.mp ?_⟩
  . rw [(Http.Wire.valuesOf_perm hfields).length_eq]
    simp only [Http.Wire.valuesOf_cons, hne, h1]
    rfl
  . apply (Http.Wire.valuesOf_perm hfields).trans
    simp only [Http.Wire.valuesOf_cons, hne, h2]
    exact .refl _
  . apply (Http.Wire.valuesOf_perm hfields).trans
    simp only [Http.Wire.valuesOf_cons, hne, h3]
    exact .refl _

theorem sentPairs_values (hperm : headers.Perm (outEntries ctx caller))
    (hname : ∀ b ∈ bytes handle.functionName, isFieldByte b = true)
    (hauth : ∀ b ∈ bytes (reactorAuth ctx), isFieldByte b = true)
    : ∀ p ∈ sentPairs handle caller headers, (trimOws p.2).all isFieldByte = true := by
  suffices ∀ p ∈ sentPairs handle caller headers, ∀ b ∈ p.2, isFieldByte b = true by
    intro p hp
    rw [List.all_eq_true]
    intro b hb
    exact this p hp b (Http.Wire.mem_trimOws hb)
  intro p hp
  simp only [sentPairs, List.mem_cons, List.mem_append, List.mem_map, List.not_mem_nil, or_false] at hp
  rcases hp with rfl | ⟨h, hh, rfl⟩ | rfl
  . exact hname
  . by_cases hkey : h.1 = "x-reactor-auth"
    . rcases mem_outHeaders ((mem_of_perm hperm).mp hh) with ⟨heq, _⟩ | ⟨_, heq⟩ | ⟨_, hne, _⟩
      . rw [hkey] at heq
        exact absurd heq (by decide)
      . show ∀ b ∈ bytes h.2, isFieldByte b = true
        rw [heq]
        exact hauth
      . exact absurd hkey hne
    . exact (headerPair_ok hperm hh).2.2.2 hkey
  . intro b hb
    have hdigit := Http.Wire.isDigit_numeral hb
    simp only [Http.Wire.isDigit, Bool.and_eq_true, decide_eq_true_eq, UInt8.le_iff_toNat_le] at hdigit
    have hlow : 48 ≤ b.toNat := hdigit.1
    have hhigh : b.toNat ≤ 57 := hdigit.2
    exact isFieldByte_of_toNat (by omega) (by omega)

theorem Plain.conveys (h : Plain handle ctx caller) (hperm : headers.Perm (outEntries ctx caller))
    (newId : Uuid)
    : ∃ r, parseRequest (written handle newId (outRequest caller headers)) = some (r, [])
      ∧ Conveys handle ctx caller r := by
  have hfields : ((sentPairs handle caller headers).map Http.Wire.readField).Perm
      ((Http.Wire.host, bytes handle.functionName)
        :: (bytes "x-reactor-auth", bytes (reactorAuth ctx))
        :: (Http.Wire.contentLength, numeral caller.body.length)
        :: (forwarded caller.headers).map fieldPair) := by
    apply (readFields_perm hperm h.name.2).trans
    apply List.Perm.cons
    apply List.Perm.trans _ (List.Perm.swap _ _ _)
    apply List.Perm.cons
    exact h.toHeadersPlain.entriesMatch
  obtain ⟨hhost, hlength, hte⟩ := valuesOf_forwarded h.host hfields
  have hsub : ∀ x ∈ ([32, 13] : Bytes), x ∈ ([13, 32, 37, 63] : Bytes) :=
    List.all_iff_forall_prop.mp (by decide)
  have hclean : ∀ x ∈ ([32, 13] : Bytes), x ∉ bytes (outPath (caller.rest.getD "")) := by
    intro x hx hmem
    have := h.path x hmem
    rw [Http.Wire.not_isPathByte (hsub x hx)] at this
    cases this
  refine ⟨⟨bytes caller.method.text, bytes (outPath (caller.rest.getD "")), none,
    (sentPairs handle caller headers).map Http.Wire.readField, caller.body⟩, ?_, ?_⟩
  . rw [written_outRequest hperm, Http.Wire.parseRequest_text caller.method.isToken
      ⟨hclean 32 (by simp), hclean 13 (by simp)⟩ (sentPairs_ok hperm h.name.1)]
    refine ⟨?_, rfl, rfl, Http.Wire.parseTarget_path (outPath_slash _) h.path, caller.body.length,
      Http.Wire.bodyLength_numeral hlength, hhost, hte, Nat.le_refl _, ?_, ?_⟩
    . exact sentPairs_values hperm h.name.1 (all_reactorAuth.mpr h.permissions)
    . exact (List.take_length).symm
    . exact (List.drop_length).symm
  . exact ⟨rfl, rfl, by rw [h.query]; rfl, rfl, hfields⟩

/--
What is read back and is right cannot have come from other parts.
-/
theorem plain_of_conveys {newId : Uuid} {r : Http.Wire.Request}
    (hparse : parseRequest (written handle newId (outRequest caller (outEntries ctx caller)))
      = some (r, []))
    (h : Conveys handle ctx caller r) : Plain handle ctx caller := by
  have hperm : (outEntries ctx caller).Perm (outEntries ctx caller) := .refl _
  have hmem : (Http.Wire.host, bytes handle.functionName) ∈ r.fields :=
    h.fields.symm.subset List.mem_cons_self
  have htext := @written_outRequest handle ctx caller _ hperm newId
  rw [htext] at hparse
  -- the path
  have hfirst : parseRequest (bytes caller.method.text
      ++ 32 :: (bytes (outPath (caller.rest.getD "")) ++ 32 :: (Http.Wire.version ++ 13 :: 10 ::
        (unlines ((sentPairs handle caller (outEntries ctx caller)).map Http.Wire.fieldLine)
          ++ 13 :: 10 :: caller.body)))) = some (r, []) := by
    rw [← hparse, Http.Wire.unlines_cons]
    simp only [List.append_assoc, List.cons_append]
  obtain ⟨hquery, hpath⟩ := Http.Wire.path_of_parseRequest caller.method.isToken hfirst h.path
  have hclean : ∀ x ∈ ([13, 32, 37, 63] : Bytes), x ∉ bytes (outPath (caller.rest.getD "")) := by
    intro x hx hmem
    have := hpath x hmem
    rw [Http.Wire.not_isPathByte hx] at this
    cases this
  -- the name of the function
  have hhosts : (valuesOf Http.Wire.host r.fields).length = 1 := by
    obtain ⟨_, _, _, _, _, _, _, _, _, _, hhost, _⟩ := Http.Wire.parseRequest_eq_some.mp hparse
    exact hhost
  have hline : 13 ∉ bytes caller.method.text
      ++ 32 :: (bytes (outPath (caller.rest.getD "")) ++ 32 :: Http.Wire.version) := by
    have := Http.Wire.isToken_notMem caller.method.isToken (b := 13) (by decide)
    simp [this, hclean 13 (by decide), Http.Wire.version]
  have hsecond : parseRequest ((bytes caller.method.text
      ++ 32 :: (bytes (outPath (caller.rest.getD "")) ++ 32 :: Http.Wire.version))
        ++ 13 :: 10 :: (bytes "Host" ++ 58 :: 32 :: (bytes handle.functionName ++ 13 :: 10 ::
          (unlines (((outEntries ctx caller).map headerPair ++ [lengthPair caller.body]).map
            Http.Wire.fieldLine) ++ 13 :: 10 :: caller.body)))) = some (r, []) := by
    rw [← hparse, sentPairs, List.map_cons, Http.Wire.unlines_cons, Http.Wire.unlines_cons]
    simp only [List.append_assoc, List.cons_append, hostPair, Http.Wire.fieldLine]
  have hvalue : ∀ v fields, r.fields = ((bytes "Host").map Http.Wire.lowerByte, v) :: fields →
      v = bytes handle.functionName := by
    intro v fields hfields
    have hlower : (bytes "Host").map Http.Wire.lowerByte = Http.Wire.host := bytes_names.2.2.2.1
    rw [hfields, hlower, Http.Wire.valuesOf_cons, if_pos (by simp)] at hhosts
    rw [hfields, hlower, List.mem_cons] at hmem
    cases hmem with
    | inl heq => exact (congrArg Prod.snd heq).symm
    | inr hin =>
      have hin := Http.Wire.mem_valuesOf.mpr hin
      rw [List.length_cons, Nat.succ_inj, List.length_eq_zero_iff] at hhosts
      rw [hhosts] at hin
      cases hin
  have hname := Http.Wire.value_of_parseRequest ⟨by simp, hline⟩ isToken_own.1 hsecond hvalue
    (List.ne_nil_of_mem hmem)
  -- the rest is read as it was put together
  obtain ⟨hvalues, hfields, _⟩ := (Http.Wire.parseRequest_text caller.method.isToken
    ⟨hclean 32 (by decide), hclean 13 (by decide)⟩ (sentPairs_ok hperm hname.1)).mp hparse
  have hentries : EntriesMatch ctx caller.headers := by
    have hread := (readFields_perm hperm hname.2).symm.trans (hfields ▸ h.fields)
    apply List.Perm.cons_inv
    exact (List.Perm.cons_inv hread).trans (List.Perm.swap _ _ _)
  exact {
    toHeadersPlain := hentries.plain
    query := by
      have := h.query
      rw [hquery] at this
      cases hcaller : caller.query with
      | none => rfl
      | some q => simp [hcaller] at this
    path := hpath
    name := hname
    permissions := by
      apply all_reactorAuth.mp
      have hauth : ("x-reactor-auth", reactorAuth ctx) ∈ outEntries ctx caller := by
        rw [mem_of_perm hperm, ← AList.mem_lookup_iff, outHeaders, AList.lookup_insert_ne (by decide),
          AList.lookup_insert]
        rfl
      have := hvalues (headerPair ("x-reactor-auth", reactorAuth ctx)) (by
        simp only [sentPairs, List.mem_cons, List.mem_append]
        exact .inr (.inl (List.mem_map_of_mem hauth)))
      rw [headerPair, trimOws_reactorAuth, List.all_eq_true] at this
      exact this
    host := by
      intro f hf heq
      have hsame : bytes f.name = Http.Wire.host := by
        rw [heq]
        exact bytes_names.1
      rw [(Http.Wire.valuesOf_perm h.fields).length_eq, Http.Wire.valuesOf_cons, if_pos (by simp),
        List.length_cons, Nat.succ_inj, List.length_eq_zero_iff, Http.Wire.valuesOf_eq_nil] at hhosts
      apply hhosts (fieldPair f) _ hsame
      exact List.mem_cons_of_mem _ (List.mem_cons_of_mem _ (List.mem_map_of_mem hf)) }

end Requests

theorem delivers_iff (handle : DeploymentHandle) (limits : Limits) (ctx : InvokeCtx)
    (caller : CallerRequest) (newId : Uuid)
    : Delivers handle limits ctx caller newId ↔ TooLarge limits caller ∨ Plain handle ctx caller := by
  rcases @buildIncomingRequest_cases limits ctx caller with ⟨hlarge, e, he⟩ | ⟨hsmall, hok⟩
  . constructor
    . intro _
      exact .inl hlarge
    . intro _ request hrequest
      rw [he] at hrequest
      cases hrequest
  . constructor
    . intro h
      obtain ⟨r, hparse, hconveys⟩ := h _ hok _ (.refl _)
      exact .inr (plain_of_conveys hparse hconveys)
    . rintro (hlarge | hplain) request hrequest headers hperm
      . exact absurd hlarge hsmall
      . rw [hok] at hrequest
        cases hrequest
        exact hplain.conveys hperm newId

/-! ## Requests that are and are not conveyed -/

def HeaderField.requestId : HeaderField where
  name := "x-request-id"
  value := bytes (Rust.Uuid.hyphenated 3)
  isName := by decide
  isValue := by decide

/--
The rest of the path holds a head of its own, with a context of the caller's choice.
-/
def CallerRequest.forging : CallerRequest :=
  { CallerRequest.plain [] with
    rest := some "a HTTP/1.1\r\nHost: hello\r\nX-Reactor-Auth: forged\r\n\r\nGET /b" }

example : Plain ⟨7, "hello"⟩ .plain
    { CallerRequest.plain [104, 105] with rest := some "a/b", headers := [.requestId] } where
  kept := by decide
  text := by decide
  once := by decide
  requestId := by decide
  query := rfl
  path := by decide +kernel
  name := by decide +kernel
  permissions := by simp [InvokeCtx.plain]
  host := by decide

theorem not_delivers : ¬ Delivers ⟨7, "hello"⟩ ⟨1048576, 1048576⟩ .plain .forging 4 := by
  intro h
  rcases @buildIncomingRequest_cases ⟨1048576, 1048576⟩ .plain .forging with ⟨⟨_, hlen, _⟩, _⟩ | ⟨_, hok⟩
  . cases hlen
  . obtain ⟨r, hparse, hconveys⟩ := h _ hok _ (.refl _)
    have hpath := (plain_of_conveys hparse hconveys).path 32 (by decide)
    exact absurd hpath (by decide)

end Reactor.Functions
