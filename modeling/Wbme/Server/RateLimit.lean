import Mathlib.Algebra.Order.Floor.Semiring
import Mathlib.Data.Finset.Card
import Mathlib.Data.Rat.Floor
import Mathlib.Order.Interval.Finset.Nat
import Wbme.Lib.ExpiringKeys
import Wbme.Fin.Fields

/-! # The rate limit guard

A request is counted in each dimension of its route: an `INCR` of the counter of its key and,
where that begins the counter, an `EXPIRE`. Commands of other requests come between the two, a
process may stop there, and Redis may fail.
-/

namespace Wbme.RateLimit

open Lib
open Wbme.Fin (trimChars)

def hexDigit? (c : Char) : Option Nat :=
  if c.isDigit then some (c.toNat - 48)
  else if 'a' ≤ c ∧ c ≤ 'f' then some (c.toNat - 87)
  else if 'A' ≤ c ∧ c ≤ 'F' then some (c.toNat - 55)
  else none

/-- The bytes that an escaped text stands for. A percent sign needs two digits behind it. -/
def escapedBytes : List Char → Option (List UInt8)
  | [] => some []
  | '%' :: a :: b :: rest =>
      (hexDigit? a).bind fun high => (hexDigit? b).bind fun low =>
        (escapedBytes rest).map (UInt8.ofNat (16 * high + low) :: ·)
  | '%' :: _ => none
  | c :: rest => (escapedBytes rest).map (String.utf8EncodeChar c ++ ·)

/-- The text of escaped bytes. A character that is not escaped never completes bytes that are, so
that all are read at once. -/
def decodeURIComponent (text : List Char) : Option String :=
  (escapedBytes text).bind fun bytes => String.fromUTF8? ⟨bytes.toArray⟩

/-- The name and the value of a part of the header, if it has a name. -/
def cookiePart (part : List Char) : Option (List Char × List Char) :=
  match part.idxOf? '=' with
  | some (eq + 1) => some (trimChars (part.take (eq + 1)), trimChars (part.drop (eq + 2)))
  | _ => none

/-- The cookies of a header, the latest last, or nothing where a value cannot be decoded. -/
def parseCookies (cookieHeader : Option String) : Option (List (String × String)) :=
  (((cookieHeader.getD "").toList.splitOn ';').filterMap cookiePart).mapM fun part =>
    (decodeURIComponent part.2).map (String.ofList part.1, ·)

/-! ## Keys and limits -/

inductive KeyType where
  | ip
  | user
  | raw
  | cookie
  | query

structure RateLimitOptions where
  scope : String
  keyType : KeyType
  key : Option String
  keyName : Option String
  limit : ℚ
  windowSeconds : ℚ
  envPrefix : Option String
  windowSeconds_pos : 0 < windowSeconds

structure Request where
  ip : Option String
  /-- The user of the request context. -/
  userId : Option Nat
  cookie : Option String
  /-- The values of a query parameter. -/
  query : String → List String

def nonEmpty (text : String) : Option String := if text = "" then none else some text

/-- The key of a request in a dimension, or the error that `decodeURIComponent` throws. -/
def Request.resolveKey (r : Request) (o : RateLimitOptions) : Except String (Option String) :=
  match o.keyType with
  | .ip => .ok (some (r.ip.getD "unknown"))
  | .user => .ok (some (r.userId.elim "anonymous" toString))
  | .raw => .ok (some (o.key.getD "fixed"))
  | .cookie =>
      match parseCookies r.cookie with
      | none => .error "URI malformed"
      | some cookies => .ok ((cookies.reverse.lookup (o.keyName.getD "")).bind nonEmpty)
  | .query =>
      match r.query (o.keyName.getD "") with
      | [] => .ok none
      | [value] => .ok (nonEmpty value)
      | values => .ok (some (",".intercalate values))

def redisKey (scope key : String) : String := ":".intercalate ["ratelimit", scope, key]

/-- The counter of a request in a dimension, if the dimension is not skipped. -/
def Request.counter (r : Request) (o : RateLimitOptions) : Except String (Option String) :=
  (r.resolveKey o).map fun key => (key.bind nonEmpty).map (redisKey o.scope)

inductive LimitField where
  | limit
  | windowSeconds

def LimitField.suffix : LimitField → String
  | .limit => "LIMIT"
  | .windowSeconds => "WINDOW_SECONDS"

def RateLimitOptions.default (o : RateLimitOptions) : LimitField → ℚ
  | .limit => o.limit
  | .windowSeconds => o.windowSeconds

/-- The environment gives the finite numbers that its variables hold. -/
def resolvedLimit (env : String → Option ℚ) (o : RateLimitOptions) (field : LimitField) : ℚ :=
  match (o.envPrefix.bind nonEmpty).bind fun name => env s!"RATE_LIMIT_{name}_{field.suffix}" with
  | none => o.default field
  | some parsed => if 0 < parsed then parsed else o.default field

/-! ## Runs -/

/-- An `INCR` of the guard: the count it came to, and the limit and the window of its request. -/
structure Counted where
  request : Nat
  key : String
  time : Nat
  /-- Which counter of the key this is: a counter that has expired is followed by another. -/
  life : Nat
  count : Nat
  limit : ℚ
  windowSeconds : ℚ

inductive Outcome where
  | passed
  | rateLimited
  /-- A command failed. -/
  | dependency
  /-- The process stopped. -/
  | crashed
  | uriError
deriving DecidableEq

inductive Stage where
  | checking (todo : List RateLimitOptions)
  /-- Before the `EXPIRE` of a counter that this request has begun. -/
  | expiring (c : Counted) (todo : List RateLimitOptions)
  /-- The end of a request, with the counter that it began and gave no expiry. -/
  | over (outcome : Outcome) (owed : Option Counted)

/-- The counter that a request has begun and given no expiry. -/
def Stage.owes : Stage → Option Counted
  | .checking _ => none
  | .expiring c _ => some c
  | .over _ owed => owed

/-- A request, with the dimensions of its route and how far it has come. -/
structure Handled where
  request : Request
  options : List RateLimitOptions
  stage : Stage

structure GuardRun where
  /-- In milliseconds. -/
  clock : Nat
  counters : ExpiringKeys String Nat
  requests : Nat → Option Handled
  life : String → Nat
  /-- What was counted, the latest first. -/
  log : List Counted

namespace GuardRun

def start : GuardRun := ⟨0, .empty, fun _ => none, fun _ => 0, []⟩

def settle (s : GuardRun) (i : Nat) (r : Handled) : GuardRun :=
  { s with requests := Function.update s.requests i (some r) }

/-- The counter that a request has begun and given no expiry. -/
def owes (s : GuardRun) (i : Nat) : Option Counted := (s.requests i).bind (·.stage.owes)

/-- What an `INCR` comes to. -/
def counted (env : String → Option ℚ) (s : GuardRun) (i : Nat) (o : RateLimitOptions)
    (key : String) : Counted where
  request := i
  key
  time := s.clock
  life := if (s.counters.live s.clock key).isSome then s.life key else s.life key + 1
  count := ((s.counters.live s.clock key).map (·.value)).getD 0 + 1
  limit := resolvedLimit env o .limit
  windowSeconds := resolvedLimit env o .windowSeconds

def incr (s : GuardRun) (c : Counted) : GuardRun :=
  { s with
    counters := s.counters.incr s.clock c.key
    life := Function.update s.life c.key c.life
    log := c :: s.log }

/-- `EXPIRE` takes whole seconds, and no more than its clock can hold. -/
def lifetime (clock : Nat) (seconds : ℚ) : Option Nat :=
  if seconds.den = 1 ∧ 0 < seconds.num ∧ clock + 1000 * seconds.num.toNat < 2 ^ 63 then
    some (1000 * seconds.num.toNat)
  else none

def expire (s : GuardRun) (c : Counted) (ttl : Nat) : GuardRun :=
  { s with counters := s.counters.expire s.clock c.key ttl }

def judge (c : Counted) (todo : List RateLimitOptions) : Stage :=
  if c.limit < c.count then .over .rateLimited none else .checking todo

/-- What a request still owes behind the `INCR` whose answer it does not get. -/
def begun (c : Counted) : Option Counted := if c.count = 1 then some c else none

variable (env : String → Option ℚ)

/-- A request goes on to its next command, and has the answer. -/
def advance (s : GuardRun) (i : Nat) (r : Handled) : GuardRun :=
  match r.stage with
  | .over _ _ => s
  | .checking [] => s.settle i { r with stage := .over .passed none }
  | .checking (o :: todo) =>
      match r.request.counter o with
      | .error _ => s.settle i { r with stage := .over .uriError none }
      | .ok none => s.settle i { r with stage := .checking todo }
      | .ok (some key) =>
          let c := s.counted env i o key
          (s.incr c).settle i
            { r with stage := if c.count = 1 then .expiring c todo else judge c todo }
  | .expiring c todo =>
      match lifetime s.clock c.windowSeconds with
      | none => s.settle i { r with stage := .over .dependency (some c) }
      | some ttl => (s.expire c ttl).settle i { r with stage := judge c todo }

/-- A request gets no answer to its next command, which Redis may have executed. -/
def stop (s : GuardRun) (i : Nat) (r : Handled) (outcome : Outcome) (executed : Bool) : GuardRun :=
  match r.stage with
  | .over _ _ => s
  | .checking [] => s.settle i { r with stage := .over outcome none }
  | .checking (o :: _) =>
      match executed, r.request.counter o with
      | true, .ok (some key) =>
          let c := s.counted env i o key
          (s.incr c).settle i { r with stage := .over outcome (begun c) }
      | _, _ => s.settle i { r with stage := .over outcome none }
  | .expiring c _ =>
      match executed, lifetime s.clock c.windowSeconds with
      | true, some ttl => (s.expire c ttl).settle i { r with stage := .over outcome none }
      | _, _ => s.settle i { r with stage := .over outcome (some c) }

inductive Event where
  | arrive (i : Nat) (request : Request) (options : List RateLimitOptions)
  | advance (i : Nat)
  | fail (i : Nat) (executed : Bool)
  | crash (i : Nat) (executed : Bool)
  | pass (time : Nat)

def step (s : GuardRun) : Event → GuardRun
  | .arrive i request options =>
      match s.requests i with
      | some _ => s
      | none => s.settle i ⟨request, options, .checking options⟩
  | .advance i => (s.requests i).elim s fun r => s.advance env i r
  | .fail i executed => (s.requests i).elim s fun r => s.stop env i r .dependency executed
  | .crash i executed => (s.requests i).elim s fun r => s.stop env i r .crashed executed
  | .pass time => { s with clock := s.clock + time }

def run (s : GuardRun) (events : List Event) : GuardRun := events.foldl (step env) s

/-! ## The law -/

def InWindow (opening x : Counted) : Prop :=
  x.key = opening.key ∧ opening.time ≤ x.time ∧
    (x.time : ℚ) < opening.time + 1000 * opening.windowSeconds

instance (opening x : Counted) : Decidable (InWindow opening x) :=
  inferInstanceAs (Decidable (_ ∧ _ ∧ _))

def Met (log : List Counted) (i : Nat) (r : Request) (o : RateLimitOptions) : Prop :=
  ∀ key, r.counter o = .ok (some key) →
    ∃ x ∈ log, x.request = i ∧ x.key = key ∧ x.limit = resolvedLimit env o .limit ∧
      (x.count : ℚ) ≤ x.limit

structure Law (s : GuardRun) : Prop where
  counted : ∀ i r owed, s.requests i = some r → r.stage = .over .passed owed →
    ∀ o ∈ r.options, Met env s.log i r.request o
  bounded : ∀ opening ∈ s.log, opening.count = 1 → ∀ limit : ℚ,
    (s.log.filter fun x => InWindow opening x ∧ x.limit = limit ∧ (x.count : ℚ) ≤ limit).length ≤
      ⌊limit⌋₊
  expires : ∀ key e, s.counters.live s.clock key = some e → e.expiresAt.isSome = true
  rejects : ∀ i r owed, s.requests i = some r → r.stage ≠ .over .uriError owed

/-! ## Counters and counts -/

/-- A count was over by a time, and so was the window that it opened. -/
def EndsBy (x : Counted) (t : Nat) : Prop :=
  x.time < t ∧ (x.count = 1 → (x.time : ℚ) + 1000 * x.windowSeconds ≤ t)

theorem EndsBy.mono {x : Counted} {t t' : Nat} (h : EndsBy x t) (hle : t ≤ t') : EndsBy x t' := by
  refine ⟨Nat.lt_of_lt_of_le h.1 hle, ?_⟩
  intro hcount
  exact (h.2 hcount).trans (by exact_mod_cast hle)

structure Agrees (s : GuardRun) : Prop where
  positive : ∀ k e, s.counters k = some e → 0 < e.value
  before : ∀ x ∈ s.log, x.time ≤ s.clock ∧ 0 < x.count ∧ x.life ≤ s.life x.key
  current : ∀ x ∈ s.log, x.life = s.life x.key → ∃ e, s.counters x.key = some e ∧
    x.count ≤ e.value ∧ ∀ t, e.expiresAt = some t → EndsBy x t
  past : ∀ x ∈ s.log, x.life < s.life x.key → EndsBy x s.clock
  apart : ∀ x ∈ s.log, ∀ y ∈ s.log, x.key = y.key → x.life < y.life → EndsBy x y.time
  distinct : s.log.Pairwise fun y x => y.key = x.key → y.life = x.life → y.count ≠ x.count

variable {outcome : Outcome} {ends : Option Nat}

section Agrees

variable {env : String → Option ℚ} {s : GuardRun} {x c : Counted}

theorem Agrees.start : Agrees start := by
  constructor <;> intros <;> simp_all [GuardRun.start, ExpiringKeys.empty]

theorem Agrees.over (h : Agrees s) (hx : x ∈ s.log)
    (hlive : s.counters.live s.clock x.key = none) : EndsBy x s.clock := by
  rcases Nat.lt_or_eq_of_le (h.before x hx).2.2 with hlt | heq
  · exact h.past x hx hlt
  · obtain ⟨e, he, -, hends⟩ := h.current x hx heq
    have hgone : ¬ ∀ t, e.expiresAt = some t → s.clock < t := by
      intro hall
      rw [ExpiringKeys.live_eq_some.mpr ⟨he, hall⟩] at hlive
      cases hlive
    simp only [not_forall] at hgone
    obtain ⟨t, ht, hle⟩ := hgone
    exact (hends t ht).mono (Nat.le_of_not_lt hle)

theorem Agrees.pass (h : Agrees s) (d : Nat) : Agrees { s with clock := s.clock + d } where
  positive := h.positive
  before := fun x hx => ⟨Nat.le_add_right_of_le (h.before x hx).1, (h.before x hx).2⟩
  current := h.current
  past := fun x hx hlt => (h.past x hx hlt).mono (Nat.le_add_right _ _)
  apart := h.apart
  distinct := h.distinct

structure Incremented (s : GuardRun) (c : Counted) (ends : Option Nat) : Prop where
  counter : (s.incr c).counters c.key = some ⟨c.count, ends⟩
  time : c.time = s.clock
  pos : 0 < c.count
  life : s.life c.key ≤ c.life
  alive : ∀ t, ends = some t → s.clock < t ∧ c.count ≠ 1
  more : c.count ≠ 1 → ∃ e, s.counters c.key = some e ∧ e.expiresAt = ends
  bare : ∀ e, s.counters c.key = some e → e.expiresAt = none →
    ends = none ∧ c.life = s.life c.key ∧ c.count ≠ 1
  older : ∀ x ∈ s.log, x.key = c.key → x.life < c.life ∧ EndsBy x s.clock ∨
    x.life = c.life ∧ x.count < c.count ∧ ∀ t, ends = some t → EndsBy x t

theorem incr_counters_ne (s : GuardRun) (c : Counted) {k : String} (hk : k ≠ c.key) :
    (s.incr c).counters k = s.counters k := ExpiringKeys.incr_ne _ _ hk

theorem Agrees.incremented (h : Agrees s) (i : Nat) (o : RateLimitOptions) (key : String) :
    ∃ ends, Incremented s (s.counted env i o key) ends := by
  have hcounter := ExpiringKeys.incr_self s.counters s.clock key
  cases hlive : s.counters.live s.clock key with
  | none =>
      rw [hlive] at hcounter
      refine ⟨none, ?_⟩
      constructor
      · simpa [counted, hlive, GuardRun.incr] using hcounter
      · rfl
      · exact Nat.succ_pos _
      · simp [counted, hlive]
      · exact nofun
      · simp [counted, hlive]
      · intro e he hbare
        have halive : s.counters.live s.clock key = some e :=
          ExpiringKeys.live_eq_some.mpr ⟨he, by simp [hbare]⟩
        exact absurd (halive.symm.trans hlive) nofun
      · intro x hx hkey
        have hle := (h.before x hx).2.2
        rw [hkey] at hle
        refine .inl ⟨?_, h.over hx (hkey ▸ hlive)⟩
        simp only [counted, hlive, Option.isSome_none, Bool.false_eq_true, if_false] at hle ⊢
        omega
  | some e =>
      rw [hlive] at hcounter
      obtain ⟨hentry, hfresh⟩ := ExpiringKeys.live_eq_some.mp hlive
      have hpos := h.positive _ _ hentry
      have hcount : (s.counted env i o key).count = e.value + 1 := by simp [counted, hlive]
      have hlife : (s.counted env i o key).life = s.life key := by simp [counted, hlive]
      refine ⟨e.expiresAt, ?_⟩
      constructor
      · rw [hcount]
        exact hcounter
      · rfl
      · exact Nat.succ_pos _
      · exact hlife.ge
      · intro t ht
        exact ⟨hfresh t ht, by omega⟩
      · intro _
        exact ⟨e, hentry, rfl⟩
      · intro e' he' hbare
        obtain rfl := Option.some.inj (he'.symm.trans hentry)
        exact ⟨hbare, hlife, by omega⟩
      · intro x hx hkey
        have hle := (h.before x hx).2.2
        rcases Nat.lt_or_eq_of_le hle with hlt | heq
        · exact .inl ⟨by rw [hlife, ← show x.key = key from hkey]; exact hlt, h.past x hx hlt⟩
        · obtain ⟨e', he', hcurrent, hends⟩ := h.current x hx heq
          rw [hkey] at he' heq
          obtain rfl := Option.some.inj (he'.symm.trans hentry)
          exact .inr ⟨heq.trans hlife.symm, by omega, hends⟩

theorem Agrees.incr (h : Agrees s) (hc : Incremented s c ends) : Agrees (s.incr c) := by
  have hlifes : ∀ x : Counted, (s.incr c).life x.key = if x.key = c.key then c.life
      else s.life x.key := fun x => Function.update_apply s.life c.key c.life x.key
  have hself : (s.incr c).life c.key = c.life := Function.update_self _ _ _
  constructor
  · intro k e he
    by_cases hk : k = c.key
    · rw [hk, hc.counter] at he
      cases he
      exact hc.pos
    · exact h.positive k e (incr_counters_ne s c hk ▸ he)
  · intro x hx
    rcases List.mem_cons.mp hx with rfl | hx
    · exact ⟨hc.time.le, hc.pos, hself.ge⟩
    · obtain ⟨hclock, hpos, hle⟩ := h.before x hx
      refine ⟨hclock, hpos, ?_⟩
      rw [hlifes]
      split
      · rcases hc.older x hx ‹_› with hlt | heq
        · exact hlt.1.le
        · exact heq.1.le
      · exact hle
  · intro x hx heq
    rcases List.mem_cons.mp hx with rfl | hx
    · exact ⟨_, hc.counter, le_rfl, fun t ht =>
        ⟨hc.time ▸ (hc.alive t ht).1, fun hone => absurd hone (hc.alive t ht).2⟩⟩
    · by_cases hkey : x.key = c.key
      · rw [hkey, hself] at heq
        rcases hc.older x hx hkey with hlt | hsame
        · omega
        · rw [hkey]
          exact ⟨_, hc.counter, hsame.2.1.le, hsame.2.2⟩
      · rw [hlifes, if_neg hkey] at heq
        rw [incr_counters_ne s c hkey]
        exact h.current x hx heq
  · intro x hx hlt
    rcases List.mem_cons.mp hx with rfl | hx
    · omega
    · by_cases hkey : x.key = c.key
      · rw [hkey, hself] at hlt
        rcases hc.older x hx hkey with hbefore | hsame
        · exact hbefore.2
        · omega
      · rw [hlifes, if_neg hkey] at hlt
        exact h.past x hx hlt
  · intro x hx y hy hkey hlt
    rcases List.mem_cons.mp hx with rfl | hxold
    · rcases List.mem_cons.mp hy with rfl | hyold
      · omega
      · rcases hc.older y hyold hkey.symm with hbefore | hsame <;> omega
    · rcases List.mem_cons.mp hy with rfl | hyold
      · rcases hc.older x hxold hkey with hbefore | hsame
        · rw [hc.time]
          exact hbefore.2
        · omega
      · exact h.apart x hxold y hyold hkey hlt
  · refine List.pairwise_cons.mpr ⟨?_, h.distinct⟩
    intro x hx hkey hlife
    rcases hc.older x hx hkey.symm with hbefore | hsame <;> omega

theorem Agrees.eq (h : Agrees s) (hx : x ∈ s.log) (hc : c ∈ s.log) (hkey : x.key = c.key)
    (hlife : x.life = c.life) (hcount : x.count = c.count) : x = c := by
  by_contra hne
  let R : Counted → Counted → Prop := fun a b => a.key = b.key → a.life = b.life → a.count ≠ b.count
  have hsymm : Std.Symm R := ⟨fun _ _ hab hk hl => (hab hk.symm hl.symm).symm⟩
  exact h.distinct.forall hx hc hne hkey hlife hcount

theorem lifetime_eq_some {clock ttl : Nat} {seconds : ℚ} (h : lifetime clock seconds = some ttl) :
    0 < ttl ∧ (1000 * seconds : ℚ) = ttl := by
  unfold lifetime at h
  split at h
  · rename_i hwhole
    obtain ⟨hden, hnum, -⟩ := hwhole
    cases h
    refine ⟨by omega, ?_⟩
    have hnat : ((seconds.num.toNat : ℤ) : ℚ) = seconds := by
      rw [Int.toNat_of_nonneg hnum.le, Rat.den_eq_one_iff seconds |>.mp hden]
    calc 1000 * seconds = 1000 * ((seconds.num.toNat : ℤ) : ℚ) := by rw [hnat]
      _ = _ := by push_cast; rfl
  · cases h

theorem Agrees.expire (h : Agrees s) {e : CacheEntry Nat} {ttl : Nat} (hc : c ∈ s.log)
    (hcount : c.count = 1) (hlife : c.life = s.life c.key) (he : s.counters c.key = some e)
    (hbare : e.expiresAt = none) (httl : lifetime s.clock c.windowSeconds = some ttl) :
    Agrees (s.expire c ttl) := by
  obtain ⟨hpositive, hwindow⟩ := lifetime_eq_some httl
  have hself : (s.expire c ttl).counters c.key = some ⟨e.value, some (s.clock + ttl)⟩ := by
    show s.counters.expire s.clock c.key ttl c.key = _
    have hlive : s.counters.live s.clock c.key = some e :=
      ExpiringKeys.live_eq_some.mpr ⟨he, by simp [hbare]⟩
    unfold ExpiringKeys.expire
    rw [hlive]
    exact ExpiringKeys.put_self _ _ _
  have hne : ∀ k, k ≠ c.key → (s.expire c ttl).counters k = s.counters k := fun k hk =>
    ExpiringKeys.expire_ne _ _ _ hk
  refine ⟨?_, h.before, ?_, h.past, h.apart, h.distinct⟩
  · intro k e' he'
    by_cases hk : k = c.key
    · rw [hk, hself] at he'
      cases he'
      exact h.positive _ e he
    · exact h.positive k e' (hne k hk ▸ he')
  · intro x hx heq
    by_cases hkey : x.key = c.key
    · obtain ⟨e', he', hle, -⟩ := h.current x hx heq
      rw [hkey, he] at he'
      cases he'
      rw [hkey]
      refine ⟨_, hself, hle, ?_⟩
      intro t ht
      cases ht
      have hclock := (h.before x hx).1
      refine ⟨by omega, ?_⟩
      intro hone
      have hlifes : x.life = c.life := by
        rw [hlife, ← hkey]
        exact heq
      have hsame : x = c := h.eq hx hc hkey hlifes (hone.trans hcount.symm)
      rw [hsame] at hclock ⊢
      rw [hwindow]
      exact_mod_cast Nat.add_le_add_right hclock ttl
    · rw [hne _ hkey]
      exact h.current x hx heq

end Agrees

section Bound

variable {s : GuardRun} {opening x : Counted}

theorem Agrees.life_of_inWindow (h : Agrees s) (ho : opening ∈ s.log) (hcount : opening.count = 1)
    (hx : x ∈ s.log) (hin : InWindow opening x) : x.life = opening.life := by
  obtain ⟨hkey, hle, hlt⟩ := hin
  rcases Nat.lt_trichotomy x.life opening.life with hbefore | heq | hafter
  · have := (h.apart x hx opening ho hkey hbefore).1
    omega
  · exact heq
  · have := (h.apart opening ho x hx hkey.symm hafter).2 hcount
    exact absurd hlt (not_lt.mpr this)

theorem Agrees.bounded (h : Agrees s) (ho : opening ∈ s.log) (hcount : opening.count = 1)
    (limit : ℚ) :
    (s.log.filter fun x => InWindow opening x ∧ x.limit = limit ∧ (x.count : ℚ) ≤ limit).length ≤
      ⌊limit⌋₊ := by
  let within := s.log.filter fun x =>
    decide (InWindow opening x ∧ x.limit = limit ∧ (x.count : ℚ) ≤ limit)
  have hmem : ∀ x ∈ within, x ∈ s.log ∧ InWindow opening x ∧ (x.count : ℚ) ≤ limit := by
    intro x hx
    obtain ⟨hlog, hkept⟩ := List.mem_filter.mp hx
    have hkept := of_decide_eq_true hkept
    exact ⟨hlog, hkept.1, hkept.2.2⟩
  have hnodup : (within.map (·.count)).Nodup := by
    rw [List.Nodup, List.pairwise_map]
    refine (h.distinct.filter _).imp_of_mem ?_
    intro y x hy hx hne
    obtain ⟨hylog, hyin, -⟩ := hmem y hy
    obtain ⟨hxlog, hxin, -⟩ := hmem x hx
    apply hne (hyin.1.trans hxin.1.symm)
    rw [h.life_of_inWindow ho hcount hylog hyin, h.life_of_inWindow ho hcount hxlog hxin]
  have hsubset : (within.map (·.count)).toFinset ⊆ Finset.Icc 1 ⌊limit⌋₊ := by
    intro n hn
    obtain ⟨x, hx, rfl⟩ := List.mem_map.mp (List.mem_toFinset.mp hn)
    obtain ⟨hlog, -, hle⟩ := hmem x hx
    exact Finset.mem_Icc.mpr ⟨(h.before x hlog).2.1, Nat.le_floor hle⟩
  calc within.length = (within.map (·.count)).toFinset.card := by
        rw [List.toFinset_card_of_nodup hnodup, List.length_map]
    _ ≤ (Finset.Icc 1 ⌊limit⌋₊).card := Finset.card_le_card hsubset
    _ = ⌊limit⌋₊ := by rw [Nat.card_Icc, Nat.add_sub_cancel]

end Bound

/-! ## What the requests owe -/

structure Owed (s : GuardRun) (owes : Nat → Option Counted) : Prop where
  begun : ∀ i c, owes i = some c → c ∈ s.log ∧ c.count = 1 ∧ c.life = s.life c.key ∧
    ∃ e, s.counters c.key = some e ∧ e.expiresAt = none
  unique : ∀ i j c d, owes i = some c → owes j = some d → c.key = d.key → i = j
  bare : ∀ k e, s.counters k = some e → e.expiresAt = none → ∃ i c, owes i = some c ∧ c.key = k

section Owed

variable {s : GuardRun} {i : Nat} {c : Counted} {r : Handled}

theorem owes_settle (s : GuardRun) (i : Nat) (r : Handled) :
    (s.settle i r).owes = Function.update s.owes i r.stage.owes := by
  funext j
  show (Function.update s.requests i (some r) j).bind _ = Function.update s.owes i r.stage.owes j
  rw [Function.update_apply, Function.update_apply]
  split
  · rfl
  · rfl

theorem Owed.settle (h : Owed s s.owes) (hsame : r.stage.owes = s.owes i) :
    Owed (s.settle i r) (s.settle i r).owes := by
  rw [owes_settle, hsame, Function.update_eq_self]
  exact ⟨h.begun, h.unique, h.bare⟩

theorem Owed.incr (h : Owed s s.owes) (hc : Incremented s c ends) (hi : s.owes i = none)
    (howed : r.stage.owes = GuardRun.begun c) :
    Owed ((s.incr c).settle i r) ((s.incr c).settle i r).owes := by
  have hcases : ∀ j d, Function.update s.owes i (GuardRun.begun c) j = some d →
      j = i ∧ c = d ∧ c.count = 1 ∨ j ≠ i ∧ s.owes j = some d := by
    intro j d hd
    rw [Function.update_apply] at hd
    split at hd
    · unfold GuardRun.begun at hd
      split at hd
      · exact .inl ⟨‹_›, Option.some.inj hd, ‹_›⟩
      · cases hd
    · exact .inr ⟨‹_›, hd⟩
  have hother : ∀ j d, s.owes j = some d → d.key = c.key →
      ends = none ∧ c.life = s.life c.key ∧ c.count ≠ 1 := by
    intro j d hd hkey
    obtain ⟨-, -, -, e, he, hbare⟩ := h.begun j d hd
    exact hc.bare e (hkey ▸ he) hbare
  rw [owes_settle, howed]
  show Owed _ (Function.update s.owes i (GuardRun.begun c))
  constructor
  · intro j d hd
    rcases hcases j d hd with ⟨-, rfl, hone⟩ | ⟨-, hd⟩
    · refine ⟨List.mem_cons_self, hone, (Function.update_self c.key c.life s.life).symm, _,
        hc.counter, ?_⟩
      cases hends : ends with
      | none => rfl
      | some t => exact absurd hone (hc.alive t hends).2
    · obtain ⟨hlog, hone, hlife, e, he, hbare⟩ := h.begun j d hd
      refine ⟨List.mem_cons_of_mem _ hlog, hone, ?_⟩
      by_cases hkey : d.key = c.key
      · obtain ⟨hends, hsame, -⟩ := hother j d hd hkey
        rw [hkey] at hlife ⊢
        exact ⟨by rw [hlife, ← hsame]; exact (Function.update_self c.key c.life s.life).symm, _,
          hc.counter, hends⟩
      · exact ⟨hlife.trans (Function.update_of_ne hkey _ _).symm, e,
          (incr_counters_ne s c hkey).trans he, hbare⟩
  · intro j k d d' hd hd' hkey
    rcases hcases j d hd with ⟨hj, rfl, hone⟩ | ⟨-, hd⟩
    · rcases hcases k d' hd' with ⟨hk, -, -⟩ | ⟨-, hd'⟩
      · rw [hj, hk]
      · exact absurd hone (hother k d' hd' hkey.symm).2.2
    · rcases hcases k d' hd' with ⟨-, rfl, hone⟩ | ⟨-, hd'⟩
      · exact absurd hone (hother j d hd hkey).2.2
      · exact h.unique j k d d' hd hd' hkey
  · intro k e he hbare
    have hold : ∀ j d, s.owes j = some d → d.key = k →
        ∃ j d, Function.update s.owes i (GuardRun.begun c) j = some d ∧ d.key = k := by
      intro j d hd hkey
      have hj : j ≠ i := by
        rintro rfl
        rw [hi] at hd
        cases hd
      exact ⟨j, d, by rw [Function.update_of_ne hj, hd], hkey⟩
    by_cases hk : k = c.key
    · by_cases hone : c.count = 1
      · exact ⟨i, c, by rw [Function.update_self, GuardRun.begun, if_pos hone], hk.symm⟩
      · obtain ⟨e', he', hends⟩ := hc.more hone
        obtain rfl := Option.some.inj (he.symm.trans (hk ▸ hc.counter))
        obtain ⟨j, d, hd, hkey⟩ := h.bare c.key e' he' (hends.trans hbare)
        exact hold j d hd (hkey.trans hk.symm)
    · obtain ⟨j, d, hd, hkey⟩ := h.bare k e (incr_counters_ne s c hk ▸ he) hbare
      exact hold j d hd hkey
theorem Owed.expire (h : Owed s s.owes) (hi : s.owes i = some c) (ttl : Nat)
    (howed : r.stage.owes = none) :
    Owed ((s.expire c ttl).settle i r) ((s.expire c ttl).settle i r).owes := by
  have hne : ∀ k, k ≠ c.key → (s.expire c ttl).counters k = s.counters k := fun k hk =>
    ExpiringKeys.expire_ne _ _ _ hk
  have hcases : ∀ j d, Function.update s.owes i none j = some d → j ≠ i ∧ s.owes j = some d := by
    intro j d hd
    rw [Function.update_apply] at hd
    split at hd
    · cases hd
    · exact ⟨‹_›, hd⟩
  rw [owes_settle, howed]
  show Owed _ (Function.update s.owes i none)
  constructor
  · intro j d hd
    obtain ⟨hj, hd⟩ := hcases j d hd
    obtain ⟨hlog, hone, hlife, hentry⟩ := h.begun j d hd
    refine ⟨hlog, hone, hlife, ?_⟩
    show ∃ e, (s.expire c ttl).counters d.key = some e ∧ _
    rw [hne d.key fun hkey => hj (h.unique j i d c hd hi hkey)]
    exact hentry
  · intro j k d d' hd hd' hkey
    exact h.unique j k d d' (hcases j d hd).2 (hcases k d' hd').2 hkey
  · intro k e he hbare
    by_cases hk : k = c.key
    · have := ExpiringKeys.expire_self_isSome (hk ▸ he)
      rw [hbare] at this
      cases this
    · obtain ⟨j, d, hd, hkey⟩ := h.bare k e (hne k hk ▸ he) hbare
      have hj : j ≠ i := by
        rintro rfl
        rw [hi] at hd
        cases hd
        exact hk hkey.symm
      exact ⟨j, d, by rw [Function.update_of_ne hj, hd], hkey⟩

end Owed

/-! ## What a request was counted for -/

/-- At its stage, a request was counted within its limit in each dimension behind it. -/
def Accounts (met : RateLimitOptions → Prop) (options : List RateLimitOptions) : Stage → Prop
  | .checking todo => ∀ o ∈ options, o ∈ todo ∨ met o
  | .expiring c todo => ∀ o ∈ options, o ∈ todo ∨ ((c.count : ℚ) ≤ c.limit → met o)
  | .over outcome _ => outcome ≠ .uriError ∧ (outcome = .passed → ∀ o ∈ options, met o)

/-- The dimensions that a request has before it. -/
def ahead : Stage → List RateLimitOptions
  | .checking todo => todo
  | .expiring _ todo => todo
  | .over _ _ => []

/-- The cookies of a request can be decoded, if a dimension of its route reads them. -/
def Decodes (request : Request) (options : List RateLimitOptions) : Prop :=
  ∀ o ∈ options, o.keyType = .cookie → (parseCookies request.cookie).isSome = true

structure Fine (env : String → Option ℚ) (log : List Counted) (i : Nat) (r : Handled) :
    Prop where
  accounts : Accounts (Met env log i r.request) r.options r.stage
  decodes : Decodes r.request r.options
  ahead : ahead r.stage ⊆ r.options

section Fine

variable {env : String → Option ℚ} {log : List Counted} {i : Nat} {r : Handled} {c : Counted}
  {o : RateLimitOptions} {todo : List RateLimitOptions}

theorem Decodes.counter {request : Request} {options : List RateLimitOptions}
    (h : Decodes request options) (ho : o ∈ options) : ∃ key, request.counter o = .ok key := by
  have hresolved : ∃ key, request.resolveKey o = .ok key := by
    unfold Request.resolveKey
    split
    · exact ⟨_, rfl⟩
    · exact ⟨_, rfl⟩
    · exact ⟨_, rfl⟩
    · rename_i hcookie
      obtain ⟨cookies, hcookies⟩ := Option.isSome_iff_exists.mp (h o ho hcookie)
      rw [hcookies]
      exact ⟨_, rfl⟩
    · split
      · exact ⟨_, rfl⟩
      · exact ⟨_, rfl⟩
      · exact ⟨_, rfl⟩
  obtain ⟨key, hkey⟩ := hresolved
  exact ⟨_, by rw [Request.counter, hkey]; rfl⟩

theorem Fine.cons (h : Fine env log i r) (c : Counted) : Fine env (c :: log) i r := by
  have hmet : ∀ o, Met env log i r.request o → Met env (c :: log) i r.request o := by
    intro o hmet key hkey
    obtain ⟨x, hx, hrest⟩ := hmet key hkey
    exact ⟨x, List.mem_cons_of_mem c hx, hrest⟩
  refine ⟨?_, h.decodes, h.ahead⟩
  have haccounts := h.accounts
  cases hstage : r.stage <;> rw [hstage] at haccounts
  · exact fun o ho => (haccounts o ho).imp_right (hmet o)
  · exact fun o ho => (haccounts o ho).imp_right fun hle hcount => hmet o (hle hcount)
  · exact ⟨haccounts.1, fun hpassed o ho => hmet o (haccounts.2 hpassed o ho)⟩

theorem Fine.over (h : Fine env log i r) (hpassed : outcome ≠ .passed)
    (herror : outcome ≠ .uriError) (owed : Option Counted) :
    Fine env log i { r with stage := .over outcome owed } :=
  ⟨⟨herror, fun heq => absurd heq hpassed⟩, h.decodes, List.nil_subset _⟩

theorem Fine.pass (h : Fine env log i r) (hstage : r.stage = .checking []) :
    Fine env log i { r with stage := .over .passed none } := by
  have haccounts := h.accounts
  rw [hstage] at haccounts
  exact ⟨⟨nofun, fun _ o ho => (haccounts o ho).resolve_left List.not_mem_nil⟩, h.decodes,
    List.nil_subset _⟩

theorem Fine.skip (h : Fine env log i r) (hstage : r.stage = .checking (o :: todo))
    (hskip : r.request.counter o = .ok none) :
    Fine env log i { r with stage := .checking todo } := by
  have haccounts := h.accounts
  have hahead := h.ahead
  rw [hstage] at haccounts hahead
  refine ⟨?_, h.decodes, fun o' ho' => hahead (List.mem_cons_of_mem o ho')⟩
  intro o' ho'
  rcases haccounts o' ho' with hin | hmet
  · rcases List.mem_cons.mp hin with rfl | hin
    · refine .inr fun key hkey => ?_
      rw [hskip] at hkey
      cases hkey
    · exact .inl hin
  · exact .inr hmet

theorem Fine.count (h : Fine env log i r) (hstage : r.stage = .checking (o :: todo)) {key : String}
    (hkey : r.request.counter o = .ok (some key)) (s : GuardRun) :
    Fine env (s.counted env i o key :: log) i
      { r with stage := .expiring (s.counted env i o key) todo } := by
  have haccounts := (h.cons (s.counted env i o key)).accounts
  have hahead := h.ahead
  rw [hstage] at haccounts hahead
  refine ⟨?_, h.decodes, fun o' ho' => hahead (List.mem_cons_of_mem o ho')⟩
  intro o' ho'
  rcases haccounts o' ho' with hin | hmet
  · rcases List.mem_cons.mp hin with rfl | hin
    · refine .inr fun hle key' hkey' => ?_
      obtain rfl : key = key' := by
        rw [hkey] at hkey'
        cases hkey'
        rfl
      exact ⟨_, List.mem_cons_self, rfl, rfl, rfl, hle⟩
    · exact .inl hin
  · exact .inr fun _ => hmet

theorem Fine.judge (h : Fine env log i r) (hstage : r.stage = .expiring c todo) :
    Fine env log i { r with stage := judge c todo } := by
  unfold GuardRun.judge
  split
  · exact h.over (by decide) (by decide) none
  · have haccounts := h.accounts
    have hahead := h.ahead
    rw [hstage] at haccounts hahead
    exact ⟨fun o ho => (haccounts o ho).imp_right fun hmet => hmet (not_lt.mp ‹_›), h.decodes,
      hahead⟩

end Fine

/-! ## Runs keep the invariant -/

structure Sound (env : String → Option ℚ) (s : GuardRun) : Prop where
  agrees : Agrees s
  owed : Owed s s.owes
  fine : ∀ i r, s.requests i = some r → Fine env s.log i r

section Sound

variable {env : String → Option ℚ} {s : GuardRun} {i : Nat} {r r' : Handled}

theorem Agrees.settle (h : Agrees s) (i : Nat) (r : Handled) : Agrees (s.settle i r) :=
  ⟨h.positive, h.before, h.current, h.past, h.apart, h.distinct⟩

theorem fine_settle (h : ∀ j r, s.requests j = some r → Fine env s.log j r)
    (hr : Fine env s.log i r') :
    ∀ j r, (s.settle i r').requests j = some r → Fine env (s.settle i r').log j r := by
  intro j r hj
  have hj : Function.update s.requests i (some r') j = some r := hj
  rw [Function.update_apply] at hj
  split at hj
  · cases hj
    exact ‹j = i› ▸ hr
  · exact h j r hj

theorem Sound.settle (h : Sound env s) (howed : r'.stage.owes = s.owes i)
    (hr : Fine env s.log i r') : Sound env (s.settle i r') :=
  ⟨h.agrees.settle i r', h.owed.settle howed, fine_settle h.fine hr⟩

theorem Sound.incr (h : Sound env s) (hnone : s.owes i = none) {o : RateLimitOptions} {key : String}
    (howed : r'.stage.owes = begun (s.counted env i o key))
    (hr : Fine env (s.counted env i o key :: s.log) i r') :
    Sound env ((s.incr (s.counted env i o key)).settle i r') := by
  obtain ⟨ends, hc⟩ := h.agrees.incremented i o key
  exact ⟨(h.agrees.incr hc).settle i r', h.owed.incr hc hnone howed,
    fine_settle (fun j r hj => (h.fine j r hj).cons _) hr⟩

theorem Sound.expire (h : Sound env s) {c : Counted} (howes : s.owes i = some c) {ttl : Nat}
    (httl : lifetime s.clock c.windowSeconds = some ttl) (howed : r'.stage.owes = none)
    (hr : Fine env s.log i r') : Sound env ((s.expire c ttl).settle i r') := by
  obtain ⟨hlog, hcount, hlife, e, he, hbare⟩ := h.owed.begun i c howes
  exact ⟨(h.agrees.expire hlog hcount hlife he hbare httl).settle i r',
    h.owed.expire howes ttl howed, fine_settle h.fine hr⟩

theorem owes_judge (c : Counted) (todo : List RateLimitOptions) : (judge c todo).owes = none := by
  unfold judge
  split <;> rfl

theorem Sound.advance (h : Sound env s) (hi : s.requests i = some r) :
    Sound env (s.advance env i r) := by
  have hfine := h.fine i r hi
  have howes : ∀ stage, r.stage = stage → s.owes i = stage.owes := by
    rintro stage rfl
    rw [GuardRun.owes, hi]
    rfl
  unfold GuardRun.advance
  split
  · exact h
  · rename_i hstage
    exact h.settle (howes _ hstage).symm (hfine.pass hstage)
  · rename_i o todo hstage
    split
    · rename_i message herror
      have hahead := hfine.ahead
      rw [hstage] at hahead
      obtain ⟨key, hkey⟩ := hfine.decodes.counter (hahead List.mem_cons_self)
      rw [hkey] at herror
      cases herror
    · exact h.settle (howes _ hstage).symm (hfine.skip hstage ‹_›)
    · rename_i key hkey
      have hcounted := hfine.count hstage hkey s
      dsimp only
      split
      · exact h.incr (howes _ hstage) (by rw [begun, if_pos ‹_›]; rfl) hcounted
      · exact h.incr (howes _ hstage) (by rw [begun, if_neg ‹_›, owes_judge]) (hcounted.judge rfl)
  · rename_i c todo hstage
    split
    · exact h.settle (howes _ hstage).symm (hfine.over (by decide) (by decide) _)
    · exact h.expire (howes _ hstage) ‹_› (owes_judge c todo) (hfine.judge hstage)

theorem Sound.stop (h : Sound env s) (hi : s.requests i = some r) (hpassed : outcome ≠ .passed)
    (herror : outcome ≠ .uriError) (executed : Bool) :
    Sound env (s.stop env i r outcome executed) := by
  have hfine : ∀ owed, Fine env s.log i { r with stage := .over outcome owed } :=
    (h.fine i r hi).over hpassed herror
  have howes : ∀ stage, r.stage = stage → s.owes i = stage.owes := by
    rintro stage rfl
    rw [GuardRun.owes, hi]
    rfl
  unfold GuardRun.stop
  split
  · exact h
  · rename_i hstage
    exact h.settle (howes _ hstage).symm (hfine _)
  · rename_i o todo hstage
    split
    · exact h.incr (howes _ hstage) rfl ((hfine _).cons _)
    · exact h.settle (howes _ hstage).symm (hfine _)
  · rename_i c todo hstage
    split
    · exact h.expire (howes _ hstage) ‹_› rfl (hfine _)
    · exact h.settle (howes _ hstage).symm (hfine _)

theorem Sound.step (h : Sound env s) (e : Event)
    (he : ∀ i request options, e = .arrive i request options → Decodes request options) :
    Sound env (s.step env e) := by
  have helim : ∀ i (f : Handled → GuardRun),
      (∀ r, s.requests i = some r → Sound env (f r)) → Sound env ((s.requests i).elim s f) := by
    intro i f hf
    cases hi : s.requests i with
    | none => exact h
    | some r => exact hf r hi
  cases e with
  | arrive i request options =>
      simp only [GuardRun.step]
      split
      · exact h
      · rename_i hi
        exact h.settle (by rw [GuardRun.owes, hi]; rfl)
          ⟨fun _ ho => .inl ho, he i request options rfl, List.Subset.refl _⟩
  | advance i => exact helim i _ fun r hi => h.advance hi
  | fail i executed => exact helim i _ fun r hi => h.stop hi (by decide) (by decide) executed
  | crash i executed => exact helim i _ fun r hi => h.stop hi (by decide) (by decide) executed
  | pass time => exact ⟨h.agrees.pass time, ⟨h.owed.begun, h.owed.unique, h.owed.bare⟩, h.fine⟩

theorem Sound.run (h : Sound env s) (events : List Event)
    (harrived : ∀ i request options, .arrive i request options ∈ events →
      Decodes request options) : Sound env (s.run env events) := by
  induction events generalizing s with
  | nil => exact h
  | cons e events ih =>
      refine ih (h.step e ?_) fun i q o hin => harrived i q o (List.mem_cons_of_mem e hin)
      intro i request options heq
      exact harrived i request options (heq ▸ List.mem_cons_self)

theorem sound_start (env : String → Option ℚ) : Sound env start :=
  ⟨.start, ⟨nofun, nofun, nofun⟩, nofun⟩

end Sound

/-! ## When the guard keeps its law -/

/-- As long as its requests have cookies that can be decoded, the guard keeps its law just when no
request is, or was stopped, between the `INCR` that began a counter and the `EXPIRE`. -/
theorem law_iff (env : String → Option ℚ) (events : List Event)
    (harrived : ∀ i request options, .arrive i request options ∈ events →
      Decodes request options) :
    Law env (start.run env events) ↔ ∀ i, (start.run env events).owes i = none := by
  have hsound := (sound_start env).run events harrived
  constructor
  · intro hlaw i
    by_contra hsome
    obtain ⟨c, hc⟩ := Option.ne_none_iff_exists'.mp hsome
    obtain ⟨-, -, -, e, he, hbare⟩ := hsound.owed.begun i c hc
    have hends := hlaw.expires c.key e (ExpiringKeys.live_eq_some.mpr ⟨he, by simp [hbare]⟩)
    rw [hbare] at hends
    cases hends
  · intro hnone
    constructor
    · intro i r owed hi hstage
      have haccounts := (hsound.fine i r hi).accounts
      rw [hstage] at haccounts
      exact haccounts.2 rfl
    · exact fun opening ho hcount => hsound.agrees.bounded ho hcount
    · intro key e he
      by_contra hbare
      obtain ⟨i, c, hc, -⟩ := hsound.owed.bare key e (ExpiringKeys.live_eq_some.mp he).1
        (Option.not_isSome_iff_eq_none.mp hbare)
      rw [hnone i] at hc
      cases hc
    · intro i r owed hi hstage
      have haccounts := (hsound.fine i r hi).accounts
      rw [hstage] at haccounts
      exact haccounts.1 rfl

/-- Twenty logins a minute from an address. -/
def loginLimit : RateLimitOptions := ⟨"login", .ip, none, none, 20, 60, none, by norm_num⟩

def fromAddress : Request := ⟨some "10.0.0.1", none, none, fun _ => []⟩

def noOverride : String → Option ℚ := fun _ => none

theorem law_iff_login : Law noOverride (start.run noOverride
    [.arrive 0 fromAddress [loginLimit], .advance 0, .pass 5, .advance 0, .advance 0]) := by
  refine (law_iff _ _ ?_).mpr ?_
  · intro i request options hin o ho hcookie
    simp only [List.mem_cons, reduceCtorEq, List.not_mem_nil, or_false, Event.arrive.injEq] at hin
    obtain ⟨-, -, rfl⟩ := hin
    obtain rfl := List.mem_singleton.mp ho
    cases hcookie
  · intro i
    cases i with
    | zero => exact Option.isNone_iff_eq_none.mp (by decide +kernel)
    | succ i => rfl

/-- A day after the process stopped behind its `INCR`, the counter is still there. -/
theorem not_law_crashed : ¬ Law noOverride (start.run noOverride
    [.arrive 0 fromAddress [loginLimit], .advance 0, .crash 0 false, .pass 86400000]) := by
  intro h
  have := h.expires "ratelimit:login:10.0.0.1" ⟨1, none⟩ (by rfl)
  cases this

example : ¬ Law noOverride (start.run noOverride
    [.arrive 0 ⟨none, none, some "flow=%", fun _ => []⟩
      [⟨"scan", .cookie, none, some "flow", 20, 60, none, by norm_num⟩], .advance 0]) := by
  intro h
  exact h.rejects 0 _ none (by rfl) (by rfl)

end GuardRun

end Wbme.RateLimit
