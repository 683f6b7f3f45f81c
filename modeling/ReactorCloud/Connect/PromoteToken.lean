import ReactorCloud.Rust.Uuid

/-!
This module contains the promote tokens of sandbox runs. A token is checked by making it again, so the check
sees its own expiry instead of the one of the token.
-/

namespace Reactor.Connect

open Rust (Uuid)

namespace SandboxManager

def nanosPerSec : Int := 1000000000

/-- `DateTime::timestamp` of a time in nanoseconds -/
def timestamp (t : Int) : Int :=
  t / nanosPerSec

/-- `chrono::Utc::now() + chrono::Duration::hours(1)` -/
def expiry (now : Int) : Int :=
  now + 3600 * nanosPerSec

def promotePayload (sandboxRunId connectionId : Uuid) (now : Int) : String :=
  Uuid.hyphenated sandboxRunId ++ ":" ++ Uuid.hyphenated connectionId ++ ":" ++ toString (timestamp (expiry now))

section

/-
The HMAC of a secret and a message, in base64.
-/
variable (hmac : List UInt8 → String → String)

def generatePromoteToken (sandboxRunId connectionId : Uuid) (secret : List UInt8) (now : Int) : String :=
  hmac secret (promotePayload sandboxRunId connectionId now)

def verifyPromoteToken (token : String) (sandboxRunId connectionId : Uuid) (secret : List UInt8) (now : Int) : Bool :=
  let expected := generatePromoteToken hmac sandboxRunId connectionId secret now
  token == expected

/--
The token of a run and a connection from the time `issued` is good for them until it expires, and for nothing else.
-/
structure Lives (secret : List UInt8) (runId connectionId : Uuid) (issued checked : Int) : Prop where
  accepts : verifyPromoteToken hmac (generatePromoteToken hmac runId connectionId secret issued) runId connectionId
      secret checked = true
    ↔ checked < expiry issued
  rejects : ∀ runId' connectionId', runId' ≠ runId ∨ connectionId' ≠ connectionId
    → verifyPromoteToken hmac (generatePromoteToken hmac runId connectionId secret issued) runId' connectionId'
      secret checked = false

end

theorem append_hyphenated_inj {id id' : Uuid} {s s' : String} (h : Uuid.hyphenated id ++ s = Uuid.hyphenated id' ++ s')
    : id = id' ∧ s = s' := by
  have hlists := congrArg String.toList h
  rw [String.toList_append, String.toList_append] at hlists
  obtain ⟨hid, hrest⟩ := List.append_inj hlists (by rw [Uuid.length_hyphenated, Uuid.length_hyphenated])
  exact ⟨Uuid.hyphenated_inj (String.toList_inj.mp hid), String.toList_inj.mp hrest⟩

theorem append_colon_inj {s s' : String} (h : ":" ++ s = ":" ++ s') : s = s' := by
  have hlists := congrArg String.toList h
  rw [String.toList_append, String.toList_append] at hlists
  exact String.toList_inj.mp (List.append_cancel_left hlists)

theorem natRepr_inj {m n : Nat} (h : Nat.repr m = Nat.repr n) : m = n := by
  have hdigits := congrArg String.toList h
  rw [Nat.toList_repr, Nat.toList_repr] at hdigits
  rw [← @Nat.ofDigitChars_ten_toDigits m, ← @Nat.ofDigitChars_ten_toDigits n, hdigits]

/--
A digit is no minus sign.
-/
theorem natRepr_ne_neg (m n : Nat) : Nat.repr m ≠ "-" ++ Nat.repr n := by
  intro h
  have hmem : '-' ∈ (Nat.repr m).toList := by
    rw [h, String.toList_append]
    exact List.mem_append_left _ (by decide)
  rw [Nat.toList_repr] at hmem
  have := Nat.isDigit_of_mem_toDigits (by decide) (by decide) hmem
  contradiction

theorem intRepr_inj {a b : Int} (h : a.repr = b.repr) : a = b := by
  cases a with
  | ofNat m =>
    cases b with
    | ofNat n => exact congrArg Int.ofNat (natRepr_inj h)
    | negSucc n => exact absurd h (natRepr_ne_neg m (n + 1))
  | negSucc m =>
    cases b with
    | ofNat n => exact absurd h.symm (natRepr_ne_neg n (m + 1))
    | negSucc n =>
      have hlists := congrArg String.toList h
      have happend : ("-" ++ Nat.repr (m + 1)).toList = ("-" ++ Nat.repr (n + 1)).toList := hlists
      rw [String.toList_append, String.toList_append] at happend
      have := natRepr_inj (String.toList_inj.mp (List.append_cancel_left happend))
      rw [Nat.succ.inj this]

theorem promotePayload_inj {runId runId' connectionId connectionId' : Uuid} {now now' : Int}
    : promotePayload runId connectionId now = promotePayload runId' connectionId' now'
        ↔
      runId = runId' ∧ connectionId = connectionId' ∧ timestamp now = timestamp now' := by
  have hexpiry : timestamp (expiry now) = timestamp (expiry now') ↔ timestamp now = timestamp now' := by
    unfold timestamp expiry nanosPerSec
    omega
  constructor
  . intro h
    unfold promotePayload at h
    rw [String.append_assoc, String.append_assoc, String.append_assoc, String.append_assoc, String.append_assoc,
      String.append_assoc] at h
    obtain ⟨hrun, h⟩ := append_hyphenated_inj h
    obtain ⟨hconnection, h⟩ := append_hyphenated_inj (append_colon_inj h)
    have h := append_colon_inj h
    rw [Int.toString_eq_repr, Int.toString_eq_repr] at h
    exact ⟨hrun, hconnection, hexpiry.mp (intRepr_inj h)⟩
  . rintro ⟨rfl, rfl, h⟩
    rw [promotePayload, promotePayload, hexpiry.mpr h]

variable {hmac : List UInt8 → String → String}

/--
The check does not accept a token any longer when the second has passed it was made in.
-/
theorem verify_iff {secret : List UInt8} (hinj : Function.Injective (hmac secret))
    {runId runId' connectionId connectionId' : Uuid} {issued checked : Int}
    : verifyPromoteToken hmac (generatePromoteToken hmac runId connectionId secret issued) runId' connectionId' secret
          checked = true
        ↔
      runId = runId' ∧ connectionId = connectionId' ∧ timestamp issued = timestamp checked := by
  unfold verifyPromoteToken generatePromoteToken
  rw [beq_iff_eq, hinj.eq_iff, promotePayload_inj]

theorem lives_iff {secret : List UInt8} (hinj : Function.Injective (hmac secret)) (runId connectionId : Uuid)
    (issued checked : Int)
    : Lives hmac secret runId connectionId issued checked
        ↔
      timestamp issued = timestamp checked ∨ expiry issued ≤ checked := by
  have hsecond : timestamp issued = timestamp checked → checked < expiry issued := by
    unfold timestamp expiry nanosPerSec
    omega
  constructor
  . intro h
    by_cases hexpired : expiry issued ≤ checked
    . exact .inr hexpired
    . left
      have := h.accepts.mpr (Int.lt_of_not_ge hexpired)
      rw [verify_iff hinj] at this
      exact this.2.2
  . intro h
    constructor
    . rw [verify_iff hinj]
      constructor
      . exact fun hsame => hsecond hsame.2.2
      . intro hlt
        refine ⟨rfl, rfl, h.resolve_right ?_⟩
        exact Int.not_le.mpr hlt
    . intro runId' connectionId' hother
      rw [← Bool.not_eq_true, verify_iff hinj]
      rintro ⟨hrun, hconnection, -⟩
      rcases hother with hne | hne
      . exact hne hrun.symm
      . exact hne hconnection.symm

theorem lives_within_second
    : Lives (fun _ message => message) [] 1 2 0 999999999
        ↔
      timestamp 0 = timestamp 999999999 ∨ expiry 0 ≤ 999999999 :=
  lives_iff (fun _ _ h => h) 1 2 0 999999999

/--
A second later the token has nearly an hour to live.
-/
theorem not_lives : ¬ Lives (fun _ message => message) [] 1 2 0 1000000000 := by
  intro h
  have hlt : (1000000000 : Int) < expiry 0 := by decide
  have hverify := h.accepts.mpr hlt
  rw [verify_iff (fun _ _ h => h)] at hverify
  have hne : timestamp 0 ≠ timestamp 1000000000 := by decide
  exact hne hverify.2.2

end SandboxManager

end Reactor.Connect
