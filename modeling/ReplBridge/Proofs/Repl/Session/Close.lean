import ReplBridge.Proofs.Repl.Session.Release
import ReplBridge.Proofs.Repl.Session.Taken

/-!
**A close always works.**

A close ends the session before anything else, and so frees the readers: a frame nobody takes is
dropped, and both streams are read to their end.  Then it looks for the subprocess.  If there is
one, it is killed, and the close returns as soon as the subprocess has heeded that, whatever the
session was about.  If there is none yet because the launcher is still at work, the close returns at
once.

Main definitions:

* `Session.Closed` — how far a close has come.

Main results:

* `Session.Closed.play` — **a close only moves on**;
* `Session.Closed.rest` — at rest it has returned;
* `Session.gone_after_close` — **the subprocess of a session that was closed is gone**, unless the
  launcher brought it only after the close had returned.
-/

set_option autoImplicit false

namespace ReplBridge.Repl.Session

variable {s : Session}

/-! ### How far a close has come -/

/-- **How far the close at place `i` has come**; `late` is whether the launcher was at work when the
session was closed. -/
inductive Closed (late : Prop) (i : Nat) (s : Session) : Prop where
  | shutting (hover : s.reason? ≠ none) (hclient : s.clients[i]? = some .shutting)
      (hreturned : late ∨ s.Returned)
  | closing {result : Option Failure} (hover : s.reason? ≠ none) (hlaunched : s.launched ≠ none)
      (hclient : s.clients[i]? = some (.closing result))
      (hkilled : ∀ manner, s.launched = some manner → manner.heedsKill = true →
        s.child.exit ≠ none)
  | returned {result : Option Failure} (hover : s.reason? ≠ none)
      (hclient : s.clients[i]? = some (.hasClosed result))
      (hgone : late ∨ s.Returned ∧ (s.launched ≠ none → s.child.exit ≠ none))

theorem Closed.over {late : Prop} {i : Nat} (h : s.Closed late i) : s.reason? ≠ none := by
  cases h with
  | shutting hover | closing hover | returned hover => exact hover

theorem closed_close (ht : s.Tidy) :
    (s.perform (.event .close)).Closed (s.launching = true) s.clients.length := by
  have hover : (s.play [.event .close]).reason? ≠ none := over_of_close ht (by simp)
  have hended := unmoved_terminate s (.plain .closed)
  have hclose : s.perform (.event .close) = (s.terminate (.plain .closed)).join .shutting := rfl
  refine .shutting hover ?_ ?_
  · rw [hclose]
    simp [join, hended.clients]
  · cases hlaunching : s.launching with
    | true => exact .inl rfl
    | false => exact .inr ⟨begun_of_over hover, hended.launching.trans hlaunching⟩

/-- A close that has still to look for the subprocess sees one that is launched before it does. -/
theorem closed_launch (ht : s.Tidy) {i : Nat} (hover : s.reason? ≠ none)
    (hclient : s.clients[i]? = some .shutting) : (s.perform (.event .launch)).Closed False i := by
  obtain ⟨r, hr⟩ := Option.ne_none_iff_exists'.1 hover
  have hr' : (s.perform (.event .launch)).reason? = some r := reason?_play ht hr [.event .launch]
  have hover' : (s.perform (.event .launch)).reason? ≠ none := by simp [hr']
  refine .shutting hover' ?_ (.inr ⟨begun_of_over hover', ?_⟩)
  · have hlaunch : s.perform (.event .launch) = s.launch := rfl
    rw [hlaunch, launch_clients, hclient]
  · exact launch_launching s

theorem Closed.perform {late : Prop} {i : Nat} (h : s.Closed late i) (ht : s.Tidy) (hp : s.Placed)
    (hgone : s.childGone = true → s.child.exit ≠ none) (a : Act) : (s.perform a).Closed late i := by
  have hexit : s.child.exit ≠ none → (s.perform a).child.exit ≠ none := fun h => exit_play ht h [a]
  have hover' : (s.perform a).reason? ≠ none := by
    obtain ⟨r, hr⟩ := Option.ne_none_iff_exists'.1 h.over
    have hr' : (s.perform a).reason? = some r := reason?_play ht hr [a]
    simp [hr']
  have hstays (hreturned : s.Returned) :
      (s.perform a).Returned ∧ (s.perform a).launched = s.launched :=
    ⟨returned_play ht hreturned [a], launched_play ht hreturned [a]⟩
  cases h with
  | shutting hover hclient hreturned =>
      rcases perform_client hclient a with hsame | ⟨s', c', rfl, hstep, heq⟩ | ⟨d, -, hdue, -⟩
      · exact .shutting hover' hsame (hreturned.imp_right fun h => (hstays h).1)
      · have hlt := (List.getElem?_eq_some_iff.1 hclient).1
        have hshut : s.shut = (s', c') := Option.some.inj hstep
        rw [heq]
        by_cases hlaunched : s.launched = none
        · rw [shut_of_none hlaunched] at hshut
          cases hshut
          exact .returned hover (List.getElem?_set_self hlt)
            (hreturned.imp_right fun h => ⟨h, fun hnot => absurd hlaunched hnot⟩)
        · rw [shut_of_launched hlaunched] at hshut
          cases hshut
          have hkept := (unmoved_closeStdin s).trans (unmoved_kill _)
          rw [heq] at hover'
          refine .closing hover' (hkept.launched ▸ hlaunched) (List.getElem?_set_self hlt) ?_
          intro manner hmanner hheeds
          exact kill_exit ((unmoved_kill _).launched ▸ hmanner) hheeds
      · cases hdue
  | closing hover hlaunched hclient hkilled =>
      obtain ⟨hreturned', hkept⟩ := hstays (returned_of_launched hp hlaunched)
      rcases perform_client hclient a with hsame | ⟨s', c', rfl, hstep, heq⟩ | ⟨d, -, hdue, -⟩
      · refine .closing hover' (hkept ▸ hlaunched) hsame ?_
        intro manner hmanner hheeds
        exact hexit (hkilled manner (hkept ▸ hmanner) hheeds)
      · rw [heq] at hreturned' ⊢
        have hlt := (List.getElem?_eq_some_iff.1 hclient).1
        cases clientStep?_eq_some hstep with
        | closed hchild =>
            exact .returned hover (List.getElem?_set_self hlt)
              (.inr ⟨hreturned', fun _ => hgone hchild⟩)
      · cases hdue
  | returned hover hclient hleft =>
      rcases perform_client hclient a with hsame | ⟨s', c', -, hstep, -⟩ | ⟨d, -, hdue, -⟩
      · refine .returned hover' hsame (hleft.imp_right fun hbefore => ?_)
        obtain ⟨hreturned, hleft⟩ := hbefore
        obtain ⟨hreturned', hkept⟩ := hstays hreturned
        exact ⟨hreturned', fun hnot => hexit (hleft (hkept ▸ hnot))⟩
      · cases hstep
      · cases hdue

theorem Reached.gone (h : s.Reached) : s.childGone = true → s.child.exit ≠ none := by
  obtain ⟨options, acts, rfl⟩ := h
  exact gone_play options acts

/-- **A close only moves on.** -/
theorem Closed.play {late : Prop} {i : Nat} (h : s.Closed late i) (hr : s.Reached) (acts : List Act) :
    (s.play acts).Closed late i :=
  hr.induction (fun _ a hr h => h.perform hr.tidy hr.placed hr.gone a) h acts

/-- At rest, a close has returned; and unless the launcher was at work when the session was closed,
the subprocess is gone, if it heeds being killed. -/
theorem Closed.rest {late : Prop} {i : Nat} (h : s.Closed late i)
    (hended : s.child.exit ≠ none → s.child.stdoutEnded = true) (hquiet : s.move? = none)
    (hheeds : ∀ manner, s.launched = some manner → manner.heedsKill = true) :
    (∃ result, s.clients[i]? = some (.hasClosed result)) ∧
      (late ∨ (s.launched ≠ none → s.child.exit ≠ none)) := by
  cases h with
  | returned _ hclient hgone => exact ⟨⟨_, hclient⟩, hgone.imp_right And.right⟩
  | shutting _ hclient =>
      have hstuck := clientStep_of_quiet hquiet (List.mem_of_getElem? hclient)
      cases hstuck
  | closing hover hlaunched hclient hkilled =>
      obtain ⟨manner, hmanner⟩ := Option.ne_none_iff_exists'.1 hlaunched
      have hexit := hkilled manner hmanner (hheeds manner hmanner)
      have hstuck := clientStep_of_quiet hquiet (List.mem_of_getElem? hclient)
      simp [clientStep?, gone_of_quiet hended hquiet hlaunched hexit hover] at hstuck

/-! ### The subprocess of a session that was closed -/

/-- Only the launcher brings a subprocess that was not there. -/
theorem exists_launch {acts : List Act} (hnone : s.launched = none)
    (h : (s.play acts).launched ≠ none) :
    ∃ before rest, acts = before ++ .event .launch :: rest ∧ (s.play before).launching = true := by
  obtain ⟨before, a, rest, hacts, hnot, hthen⟩ :=
    exists_act (P := fun t => t.launched ≠ none) (not_not_intro hnone) h
  have hlaunch : a = .event .launch := by
    by_contra hother
    rw [perform_launched _ hother] at hthen
    exact hnot hthen
  subst hlaunch
  refine ⟨before, rest, hacts, ?_⟩
  have heq : (s.play before).perform (.event .launch) = (s.play before).launch := rfl
  rw [heq] at hthen
  rcases launch_cases (s.play before) with ⟨-, heq⟩ | ⟨hlaunching, -⟩ | ⟨hlaunching, -⟩
  · rw [heq] at hthen
    exact absurd hthen hnot
  · exact hlaunching
  · exact hlaunching

/-- **The subprocess of a session that was closed is gone**, unless the launcher brought it only
after the close had returned. -/
theorem gone_after_close (options : Options) (before after : List Act)
    (hquiet : ((new options).play (before ++ [.event .close] ++ after)).move? = none)
    (hheeds : ∀ manner, ((new options).play (before ++ [.event .close] ++ after)).launched =
      some manner → manner.heedsKill = true)
    (hlaunched : ((new options).play (before ++ [.event .close] ++ after)).launched ≠ none) :
    ((new options).play (before ++ [.event .close] ++ after)).child.exit ≠ none ∨
      ∃ mid rest result, after = mid ++ .event .launch :: rest ∧
        ((new options).play (before ++ [.event .close] ++ mid)).launching = true ∧
        ((new options).play (before ++ [.event .close] ++ mid)).clients[
          ((new options).play before).clients.length]? = some (.hasClosed result) := by
  have hr : ((new options).play before).Reached := ⟨options, before, rfl⟩
  have hcloses : (new options).play (before ++ [.event .close]) =
      ((new options).play before).perform (.event .close) := by simp
  have hr' : ((new options).play (before ++ [.event .close])).Reached := ⟨options, _, rfl⟩
  have hbegins := closed_close hr.tidy
  rw [← hcloses] at hbegins
  have hclosed (mid : List Act) : ((new options).play (before ++ [.event .close] ++ mid)).Closed
      (((new options).play before).launching = true) ((new options).play before).clients.length := by
    rw [play_append]
    exact hbegins.play hr' mid
  rcases ((hclosed after).rest (ended_play options _) hquiet hheeds).2 with hlate | hgone
  · -- The close came into the launch.
    have hnone : ((new options).play (before ++ [.event .close])).launched = none := by
      rw [hcloses, perform_launched _ (by simp)]
      exact hr.placed.early (.inr hlate)
    rw [play_append] at hlaunched
    obtain ⟨mid, rest, rfl, hlaunching⟩ := exists_launch hnone hlaunched
    rw [← play_append] at hlaunching
    cases hclosed mid with
    | returned _ hclient => exact .inr ⟨mid, rest, _, rfl, hlaunching, hclient⟩
    | closing _ hnot =>
        have hr : ((new options).play (before ++ [.event .close] ++ mid)).Reached :=
          ⟨options, _, rfl⟩
        exact absurd (hr.placed.early (.inr hlaunching)) hnot
    | shutting hover hclient =>
        -- It had still to look for the subprocess, so it saw this one.
        have hr : ((new options).play (before ++ [.event .close] ++ mid)).Reached :=
          ⟨options, _, rfl⟩
        have hcaught := (closed_launch hr.tidy hover hclient).play
          (hr.leads ⟨[.event .launch], rfl⟩) rest
        have hplay : (((new options).play (before ++ [.event .close] ++ mid)).perform
            (.event .launch)).play rest =
              (new options).play (before ++ [.event .close] ++ (mid ++ .event .launch :: rest)) := by
          simp
        rw [hplay] at hcaught
        rcases (hcaught.rest (ended_play options _) hquiet hheeds).2 with hfalse | hgone
        · exact hfalse.elim
        · exact .inl (hgone (by rwa [play_append]))
  · exact .inl (hgone hlaunched)

end ReplBridge.Repl.Session
