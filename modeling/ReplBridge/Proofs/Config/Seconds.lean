import Mathlib.Data.Int.GCD
import ReplBridge.Config.Settings
import ReplBridge.Repl.Session.Basic

/-!
**Seconds of a profile as durations of 64 bits.**

A profile gives times in seconds, and a session takes them in nanoseconds, of which 64 bits hold a
little more than nine billion seconds.  What does not fit is cut down to 64 bits with a sign, and only
then looked at.  A time for commands that has become negative is refused; one that has become
positive again, or zero, is taken, and zero means that there is no limit.  A time to quit is never
refused: the session takes its own default unless the time is positive.  So a number of seconds is
kept if and only if it is at most `Settings.mostSeconds`, and every larger one that is not refused
comes out smaller.

Main definitions:

* `Settings.mostSeconds`, `Settings.residue` — the most seconds that fit, and what is left of more;
* `Settings.selected?` — the profile that the command line selects;
* `Settings.CommandTime`, `Settings.QuitTime` — **what becomes of a time**.

Main results:

* `Settings.seconds_eq`, `Settings.seconds_eq_zero_iff` — a number of seconds in 64 bits;
* `Settings.resolve_cases` — what the settings make of the profile;
* `Settings.seconds_kept_or_cut` — **what becomes of the seconds of a profile**.
-/

set_option autoImplicit false

namespace ReplBridge.Settings

/-! ### Seconds in 64 bits -/

/-- The most seconds that 64 bits of nanoseconds with a sign hold. -/
def mostSeconds : Int := 9223372036

/-- What is left of a number of seconds in 64 bits of nanoseconds, taken without a sign. -/
def residue (n : Int) : Int := Duration.ofSeconds n % Decimal.twoTo 64

theorem twoTo_63 : (Decimal.twoTo 63 : Int) = 9223372036854775808 := by decide

theorem twoTo_64 : (Decimal.twoTo 64 : Int) = 18446744073709551616 := by decide

theorem residue_nonneg (n : Int) : 0 ≤ residue n := by
  rw [residue, twoTo_64]
  omega

theorem residue_lt (n : Int) : residue n < Decimal.twoTo 64 := by
  rw [residue, twoTo_64]
  omega

/-- **A number of seconds in 64 bits**: what is left of it, read with a sign. -/
theorem seconds_eq (n : Int) :
    seconds n =
      if residue n < Decimal.twoTo 63 then residue n else residue n - Decimal.twoTo 64 := by
  rw [seconds, Decimal.wrap64, Int.bmod_def, residue, twoTo_63, twoTo_64]
  rfl

theorem seconds_neg_iff {n : Int} : seconds n < 0 ↔ (Decimal.twoTo 63 : Int) ≤ residue n := by
  have hnonneg := residue_nonneg n
  have hlt := residue_lt n
  simp only [seconds_eq, twoTo_63, twoTo_64, Duration] at hlt ⊢
  split <;> omega

theorem seconds_of_nonneg {n : Int} (h : 0 ≤ seconds n) : seconds n = residue n := by
  rw [seconds_eq, if_pos]
  exact Int.not_le.1 fun hle => Int.not_lt.2 h (seconds_neg_iff.2 hle)

theorem seconds_pos_iff {n : Int} :
    0 < seconds n ↔ 0 < residue n ∧ residue n < Decimal.twoTo 63 := by
  have hlt := residue_lt n
  simp only [seconds_eq, twoTo_63, twoTo_64, Duration] at hlt ⊢
  split <;> omega

theorem seconds_of_le {n : Int} (hpos : 0 < n) (h : n ≤ mostSeconds) :
    seconds n = Duration.ofSeconds n := by
  simp only [seconds_eq, residue, Duration.ofSeconds, mostSeconds, twoTo_63, twoTo_64,
    Duration] at h ⊢
  split <;> omega

/-- Seconds that do not fit come out smaller. -/
theorem seconds_lt_of_lt {n : Int} (h : mostSeconds < n) : seconds n < Duration.ofSeconds n := by
  simp only [seconds_eq, residue, Duration.ofSeconds, mostSeconds, twoTo_63, twoTo_64,
    Duration] at h ⊢
  split <;> omega

/-- **When nothing is left.**  A billion is an odd multiple of the ninth power of two. -/
theorem seconds_eq_zero_iff {n : Int} : seconds n = 0 ↔ (Decimal.twoTo 55 : Int) ∣ n := by
  have htwo : (Decimal.twoTo 55 : Int) = 36028797018963968 := by decide
  rw [seconds, Decimal.wrap64, ← Int.dvd_iff_bmod_eq_zero, twoTo_64, htwo, Duration.ofSeconds]
  have hwhole : (18446744073709551616 : Int) = 36028797018963968 * 512 := by decide
  have hbillion : (1000000000 : Int) = 1953125 * 512 := by decide
  rw [hwhole, hbillion, ← Int.mul_assoc, Int.mul_dvd_mul_iff_right (by decide)]
  constructor
  · intro h
    exact Int.dvd_of_dvd_mul_left_of_gcd_one h (by decide)
  · intro h
    exact Dvd.dvd.mul_right h _

/-! ### The profile that is selected -/

/-- The configuration that the command line names, if it names one. -/
def configured (e : Environment) (disk : Disk) (o : Overrides) :
    Except Config.Fault (Option Config) :=
  if o.configPath.isEmpty then pure none else Config.load e disk o.configPath

theorem resolve_eq (e : Environment) (disk : Disk) (o : Overrides) :
    resolve e disk o = configured e disk o >>= fun config => ofConfig e config o := by
  unfold resolve configured
  split <;> rfl

/-- The profile that the command line selects, if the configuration can be read, the profile is found
and its directory is one. -/
def selected? (e : Environment) (disk : Disk) (o : Overrides) : Option Profile := do
  let config ← (configured e disk o).toOption
  let p ← (Config.resolve config o.profileName).2.toOption
  let _ ← (directory e (Config.resolve config o.profileName).1 p.dir).toOption
  return p

theorem toOption_eq_some {ε α : Type} {x : Except ε α} {a : α} (h : x.toOption = some a) :
    x = .ok a := by
  cases x with
  | error _ => cases h
  | ok _ => exact congrArg Except.ok (Option.some.inj h)

theorem exists_of_selected? {e : Environment} {disk : Disk} {o : Overrides} {p : Profile}
    (h : selected? e disk o = some p) :
    ∃ config name dir, configured e disk o = .ok config ∧
      Config.resolve config o.profileName = (name, .ok p) ∧ directory e name p.dir = .ok dir := by
  simp only [selected?, Option.bind_eq_bind, Option.bind_eq_some_iff, Option.pure_def,
    Option.some.injEq] at h
  obtain ⟨config, hconfig, q, hfound, dir, hdir, rfl⟩ := h
  exact ⟨config, _, dir, toOption_eq_some hconfig, Prod.ext rfl (toOption_eq_some hfound),
    toOption_eq_some hdir⟩

/-- What the settings make of the profile that is selected. -/
theorem resolve_cases {e : Environment} {disk : Disk} {o : Overrides} {p : Profile}
    (h : selected? e disk o = some p) :
    (timeout o p < 0 ∧ resolve e disk o = .error .negativeTimeout) ∨
    (0 ≤ timeout o p ∧ ∃ s, resolve e disk o = .ok s ∧
      s.commandTimeout = timeout o p ∧ s.exitGrace = grace p) := by
  obtain ⟨config, name, dir, hconfig, hfound, hdir⟩ := exists_of_selected? h
  have hresolve : resolve e disk o = ofConfig e config o := by
    rw [resolve_eq, hconfig]
    rfl
  rw [hresolve]
  simp only [ofConfig, hfound, hdir, bind, Except.bind]
  by_cases hneg : timeout o p < 0
  · rw [if_pos hneg]
    exact .inl ⟨hneg, rfl⟩
  · rw [if_neg hneg]
    exact .inr ⟨Int.not_lt.1 hneg, _, rfl, rfl, rfl⟩

/-! ### What becomes of the seconds -/

/-- What becomes of a time for commands of `n` seconds. -/
structure CommandTime (n : Int) (result : Except Config.Fault Settings) : Prop where
  kept : n ≤ mostSeconds → ∃ s, result = .ok s ∧ s.commandTimeout = Duration.ofSeconds n
  /-- What does not fit is cut: it is refused if what is left reads as negative, and otherwise what is
  left is taken. -/
  cut : mostSeconds < n →
    (Decimal.twoTo 63 ≤ residue n ∧ result = .error .negativeTimeout) ∨
    (residue n < Decimal.twoTo 63 ∧ ∃ s, result = .ok s ∧ s.commandTimeout = residue n ∧
      s.commandTimeout < Duration.ofSeconds n ∧
      (s.commandTimeout = 0 ↔ (Decimal.twoTo 55 : Int) ∣ n))

/-- What becomes of a time to quit of `n` seconds: the session takes `taken` nanoseconds. -/
structure QuitTime (n taken : Int) : Prop where
  kept : n ≤ mostSeconds → taken = Duration.ofSeconds n
  /-- What does not fit is cut: what is left is taken if it reads as positive, and otherwise the
  default. -/
  cut : mostSeconds < n → taken < Duration.ofSeconds n ∧
    taken = if 0 < residue n ∧ residue n < Decimal.twoTo 63 then residue n else Repl.defaultGrace

theorem resolve_timeout {e : Environment} {disk : Disk} {o : Overrides} {p : Profile}
    (h : selected? e disk o = some p) (hflag : o.commandTimeout = 0)
    (hpos : 0 < p.commandTimeoutSeconds) :
    CommandTime p.commandTimeoutSeconds (resolve e disk o) := by
  have htimeout : timeout o p = seconds p.commandTimeoutSeconds := by
    simp [timeout, hflag, hpos]
  have hcases := resolve_cases h
  rw [htimeout] at hcases
  constructor
  · intro hle
    rw [seconds_of_le hpos hle] at hcases
    rcases hcases with ⟨hneg, -⟩ | ⟨-, s, hs, hcommand, -⟩
    · simp only [Duration.ofSeconds, Duration] at hneg
      omega
    · exact ⟨s, hs, hcommand⟩
  · intro hlt
    rcases hcases with ⟨hneg, hrefused⟩ | ⟨hnonneg, s, hs, hcommand, -⟩
    · exact .inl ⟨seconds_neg_iff.1 hneg, hrefused⟩
    · refine .inr ⟨Int.not_le.1 fun hle => Int.not_lt.2 hnonneg (seconds_neg_iff.2 hle), s, hs, ?_⟩
      rw [hcommand]
      exact ⟨seconds_of_nonneg hnonneg, seconds_lt_of_lt hlt, seconds_eq_zero_iff⟩

theorem coe_grace (options : Repl.Options) :
    (options.grace : Int) =
      if 0 < options.exitGrace then options.exitGrace else Repl.defaultGrace := by
  unfold Repl.Options.grace
  split
  · exact Int.toNat_of_nonneg (Int.le_of_lt (by assumption))
  · rfl

theorem grace_of_exitGrace {p : Profile} {options : Repl.Options} (h : options.exitGrace = grace p)
    (hpos : 0 < p.exitGraceSeconds) : QuitTime p.exitGraceSeconds options.grace := by
  have hgrace : options.exitGrace = seconds p.exitGraceSeconds := by
    rw [h, grace, if_pos hpos]
  rw [coe_grace, hgrace]
  constructor
  · intro hle
    rw [seconds_of_le hpos hle, if_pos]
    simp only [Duration.ofSeconds, Duration]
    omega
  · intro hlt
    by_cases hseconds : 0 < seconds p.exitGraceSeconds
    · rw [if_pos hseconds, if_pos (seconds_pos_iff.1 hseconds)]
      exact ⟨seconds_lt_of_lt hlt, seconds_of_nonneg (Int.le_of_lt hseconds)⟩
    · rw [if_neg hseconds, if_neg fun hresidue => hseconds (seconds_pos_iff.2 hresidue)]
      refine ⟨?_, rfl⟩
      simp only [Repl.defaultGrace, Duration.ofSeconds, mostSeconds] at hlt ⊢
      omega

/-- **What becomes of the seconds of a profile** that the command line selects.  A time for commands
that is not given otherwise is kept exactly if it is at most `mostSeconds`.  If it is more, it is cut
down to 64 bits: the settings are refused if what is left reads as negative, and otherwise what is
left is taken, which is less than what was asked for, and no time at all for the multiples of a power
of two.  A time to quit is kept exactly, too, if it is at most `mostSeconds`; if it is more, the
session takes what is left of it, or its default if that does not read as positive, which is less
than what was asked for in either case. -/
theorem seconds_kept_or_cut (e : Environment) (disk : Disk) (o : Overrides) (p : Profile)
    (h : selected? e disk o = some p) :
    (o.commandTimeout = 0 → 0 < p.commandTimeoutSeconds →
      CommandTime p.commandTimeoutSeconds (resolve e disk o)) ∧
    (0 < p.exitGraceSeconds → ∀ s, resolve e disk o = .ok s →
      ∀ options : Repl.Options, options.exitGrace = s.exitGrace →
        QuitTime p.exitGraceSeconds options.grace) := by
  refine ⟨resolve_timeout h, ?_⟩
  intro hpos s hs options hoptions
  refine grace_of_exitGrace ?_ hpos
  rw [hoptions]
  rcases resolve_cases h with ⟨-, hrefused⟩ | ⟨-, s', hs', -, hgrace⟩
  · rw [hrefused] at hs
    cases hs
  · rw [hs'] at hs
    cases hs
    exact hgrace

/-- A disk with one configuration, whose only profile gives the two times. -/
def diskWith (command quit : Nat) : Disk :=
  { entries := [([utf8 "c"], .file (utf8 "profiles: \x7bp: \x7bcommandTimeoutSeconds: " ++
      Decimal.ofNat command ++ utf8 ", exitGraceSeconds: " ++ Decimal.ofNat quit ++
      utf8 "\x7d\x7d") false)] }

/-- The command line that selects it. -/
def selecting : Overrides := { configPath := utf8 "/c", profileName := utf8 "p" }

/-- Times that fit are kept. -/
theorem seconds_kept_or_cut_fitting :
    ∃ s, resolve {} (diskWith 30 5) selecting = .ok s ∧ s.commandTimeout = 30000000000 ∧
      ({ sentinel := [], exitGrace := s.exitGrace } : Repl.Options).grace = 5000000000 := by
  have h : selected? {} (diskWith 30 5) selecting =
      some { commandTimeoutSeconds := 30, exitGraceSeconds := 5 } := by decide +kernel
  have hkept := seconds_kept_or_cut {} (diskWith 30 5) selecting _ h
  obtain ⟨s, hs, hcommand⟩ := (hkept.1 rfl (by decide)).kept (by decide)
  have hgrace := (hkept.2 (by decide) s hs { sentinel := [], exitGrace := s.exitGrace } rfl).kept
    (by decide)
  exact ⟨s, hs, hcommand, Int.ofNat.inj hgrace⟩

/-- Times that do not fit are cut without a word: of more than five hundred years, three tenths of a
second are left, and a time to quit is replaced by the default. -/
theorem seconds_cut_silently :
    (resolve {} (diskWith 18446744074 9223372037) selecting).toOption.map
        (fun s => (s.commandTimeout,
          ({ sentinel := [], exitGrace := s.exitGrace } : Repl.Options).grace)) =
      some (290448384, 3000000000) ∧
    Duration.ofSeconds 18446744074 = 18446744074000000000 ∧
    Duration.ofSeconds 9223372037 = 9223372037000000000 := by
  decide +kernel

end ReplBridge.Settings
