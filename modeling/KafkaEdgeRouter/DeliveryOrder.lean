import KafkaEdgeRouter.CallChronicle

/-!
# Delivery order

When dispatch calls do not overlap, every connection sees an ordered stream: what its receiver has
taken followed by what is still queued are the messages of the dispatches that its queue accepted,
in the order of the dispatches and each once. Everything else may go on at the same time.
-/

namespace KafkaEdgeRouter.Router

open History

def dispatchOf : Event → Option (CallId × RoutedMessage)
  | .began call (.dispatch message) => some (call, message)
  | _ => none

def dispatches (h : List Event) : List (CallId × RoutedMessage) := h.filterMap dispatchOf

def returns (call : CallId) : Event → Bool
  | .returned call' _ => call' = call
  | _ => false

/-- When a dispatch begins, all those before it have returned. -/
def Alone (before : List Event) (e : Event) : Prop :=
  (dispatchOf e).isSome → ∀ d ∈ dispatches before, before.any (returns d.1) = true

def Sequential (h : List Event) : Prop := Justified Alone h

instance (before : List Event) (e : Event) : Decidable (Alone before e) := by
  unfold Alone
  infer_instance

instance (h : List Event) : Decidable (Sequential h) := by
  unfold Sequential
  infer_instance

def acceptedMessages (c : ConnectionId) (h : List Event) : List RoutedMessage :=
  ((dispatches h).filter (fun d => h.any (Event.puts d.1 c))).map Prod.snd

section Events

variable {call : CallId} {c : ConnectionId} {h : List Event} {e : Event}

theorem dispatchOf_eq_some {d : CallId × RoutedMessage} (hd : dispatchOf e = some d) :
    e = .began d.1 (.dispatch d.2) := by
  unfold dispatchOf at hd
  split at hd
  · rw [← Option.some.inj hd]
  · cases hd

theorem mem_dispatches {d : CallId × RoutedMessage} :
    d ∈ dispatches h ↔ .began d.1 (.dispatch d.2) ∈ h := by
  constructor
  · intro hd
    obtain ⟨e, he, heq⟩ := List.mem_filterMap.mp hd
    rwa [← dispatchOf_eq_some heq]
  · exact fun hd => List.mem_filterMap.mpr ⟨_, hd, rfl⟩

theorem exists_returned_of_any (ha : h.any (returns call) = true) :
    ∃ response, .returned call response ∈ h := by
  obtain ⟨e, he, hr⟩ := List.any_eq_true.mp ha
  unfold returns at hr
  split at hr
  · rename_i call' response
    rw [of_decide_eq_true hr] at he
    exact ⟨response, he⟩
  · cases hr

theorem puts_eq_false_of_call (hne : e.call ≠ call) : Event.puts call c e = false := by
  unfold Event.puts
  split
  · exact decide_eq_false fun heq => hne heq.1
  · rfl

theorem puts_eq_false_of_acceptedBy (hnone : e.acceptedBy c = none) :
    Event.puts call c e = false := by
  unfold Event.puts
  split
  · rename_i caller connection delivery
    refine decide_eq_false fun heq => ?_
    rw [Event.acceptedBy, if_pos heq.2] at hnone
    cases hnone
  · rfl

end Events

section Order

variable {c : ConnectionId} {h : List Event}

theorem nodup_dispatches (hj : Justified Account h) : ((dispatches h).map Prod.fst).Nodup := by
  induction h using List.reverseRecOn with
  | nil => exact List.nodup_nil
  | append_singleton h e ih =>
    obtain ⟨hh, he⟩ := justified_concat.mp hj
    rw [dispatches, List.filterMap_append, List.map_append]
    refine List.Nodup.append (ih hh) ?_ ?_
    · cases hd : dispatchOf e with
      | none => simp [hd]
      | some d => simp [hd]
    · intro call hcall hlast
      obtain ⟨d, hd, rfl⟩ := List.mem_map.mp hcall
      obtain ⟨d', hd', heq⟩ := List.mem_map.mp hlast
      have hbegan : .began d'.1 (.dispatch d'.2) ∈ [e] := mem_dispatches.mp hd'
      rw [← List.mem_singleton.mp hbegan] at he
      exact he _ (mem_dispatches.mp hd) heq.symm

/-- An event of a dispatch that has not returned comes before any other dispatch begins. -/
theorem dispatches_split (hj : Justified Account h) (hseq : Sequential h) {call : CallId}
    {message : RoutedMessage} (hbegan : .began call (.dispatch message) ∈ h)
    (hopen : ∀ response, .returned call response ∉ h) :
    ∃ earlier, dispatches h = earlier ++ [(call, message)] ∧ ∀ d ∈ earlier, d.1 ≠ call := by
  obtain ⟨before, after, rfl⟩ := List.append_of_mem hbegan
  have hlast : dispatches after = [] := by
    rw [List.eq_nil_iff_forall_not_mem]
    intro d hd
    obtain ⟨mid, last, rfl⟩ := List.append_of_mem (mem_dispatches.mp hd)
    have hsplit : before ++ .began call (.dispatch message) ::
        (mid ++ .began d.1 (.dispatch d.2) :: last) =
        (before ++ .began call (.dispatch message) :: mid) ++
          .began d.1 (.dispatch d.2) :: last := by simp
    have halone := hseq _ _ _ hsplit rfl (call, message)
      (mem_dispatches.mpr (List.mem_append_right _ (List.mem_cons_self ..)))
    obtain ⟨response, hmem⟩ := exists_returned_of_any halone
    refine hopen response ?_
    rw [hsplit]
    exact List.mem_append_left _ hmem
  refine ⟨dispatches before, ?_, fun d hd heq => ?_⟩
  · change (before ++ .began call (.dispatch message) :: after).filterMap dispatchOf = _
    rw [List.filterMap_append]
    exact congrArg (fun l => dispatches before ++ (call, message) :: l) hlast
  · exact hj before _ after rfl _ (mem_dispatches.mp hd) heq

theorem any_concat_of_false {p : Event → Bool} {e : Event} (hp : p e = false) :
    (h ++ [e]).any p = h.any p := by
  simp [hp]

/-- What a queue accepted are the messages of the dispatches that it accepted, in order. -/
theorem accepted_eq_acceptedMessages (hj : Justified Account h) (hu : Justified Unreturned h)
    (hseq : Sequential h) :
    (h.filterMap (Event.acceptedBy c)).map Delivery.message = acceptedMessages c h := by
  induction h using List.reverseRecOn with
  | nil => rfl
  | append_singleton h e ih =>
    obtain ⟨hjh, hje⟩ := justified_concat.mp hj
    obtain ⟨huh, hue⟩ := justified_concat.mp hu
    have ih' := ih hjh huh (justified_concat.mp hseq).1
    rw [List.filterMap_append, List.map_append, ih', acceptedMessages, acceptedMessages]
    cases hacc : e.acceptedBy c with
    | some delivery =>
      obtain ⟨call, rfl⟩ := acceptedBy_eq_some hacc
      obtain ⟨hbegan, honce, _⟩ := hje
      obtain ⟨earlier, hsplit, hne⟩ :=
        dispatches_split hjh (justified_concat.mp hseq).1 hbegan hue
      have hdispatches : dispatches (h ++ [.offered call c delivery .accepted]) = dispatches h := by
        rw [dispatches, List.filterMap_append]
        exact List.append_nil _
      have hfirst : h.any (Event.puts call c) = false := by
        rw [List.any_eq_false]
        intro e' he' hputs
        unfold Event.puts at hputs
        split at hputs
        · obtain ⟨rfl, rfl⟩ := of_decide_eq_true hputs
          exact honce _ _ he'
        · cases hputs
      have hearlier : earlier.filter (fun d => (h ++ [Event.offered call c delivery .accepted]).any
          (Event.puts d.1 c)) = earlier.filter (fun d => h.any (Event.puts d.1 c)) := by
        refine List.filter_congr fun d hd => any_concat_of_false ?_
        exact puts_eq_false_of_call (hne d hd).symm
      rw [hdispatches, hsplit, List.filter_append, List.filter_append, hearlier]
      simp [hfirst, Event.puts, hacc]
    | none =>
      have hany : ∀ call, (h ++ [e]).any (Event.puts call c) = h.any (Event.puts call c) :=
        fun call => any_concat_of_false (puts_eq_false_of_acceptedBy hacc)
      simp only [hany, List.filterMap_cons_none hacc, List.filterMap_nil, List.map_nil,
        List.append_nil]
      rw [dispatches, dispatches, List.filterMap_append, List.filter_append]
      cases hd : dispatchOf e with
      | none => simp [hd]
      | some d =>
        have hbegan := dispatchOf_eq_some hd
        have hnone : h.any (Event.puts d.1 c) = false := by
          rw [List.any_eq_false]
          intro e' he'
          rw [hbegan] at hje
          rw [puts_eq_false_of_call (hje e' he')]
          exact Bool.false_ne_true
        simp [hd, hnone]

end Order

/-- In every run in which dispatch calls do not overlap, the messages that a connection has received
followed by those still queued are those of the dispatches it accepted, in the order of the
dispatches and each once; and its queue holds at most what the connection was registered for. -/
theorem deliveries_follow_dispatches (config : RouterConfig) (s : Shared)
    (hs : Reachable config s) (hseq : Sequential s.history) :
    ((dispatches s.history).map Prod.fst).Nodup ∧
    ∀ c channel, s.channels.lookup c = some channel →
      (channel.received ++ channel.queue).map Delivery.message = acceptedMessages c s.history ∧
      channel.queue.length ≤ channel.capacity ∧
      AsRegistered config s.history c channel.capacity := by
  have hB := hs.inv.base
  have hC := hs.chronicle
  refine ⟨nodup_dispatches hB.justified, fun c channel hl => ?_⟩
  have hlog : channel.received ++ channel.queue = s.history.filterMap (Event.acceptedBy c) :=
    hB.log c channel hl
  rw [hlog]
  exact ⟨accepted_eq_acceptedMessages hB.justified hC.unreturned hseq, hC.queues c channel hl⟩

theorem deliveries_follow_dispatches_acme : Sequential acmeState.history ∧
    ∃ channel, acmeState.channels.lookup ⟨7⟩ = some channel ∧
      (channel.received ++ channel.queue).map Delivery.message = [acmeMessage] := by
  have hseq : Sequential acmeState.history := by decide
  obtain ⟨channel, hl⟩ : ∃ channel, acmeState.channels.lookup ⟨7⟩ = some channel := ⟨_, rfl⟩
  exact ⟨hseq, channel, hl,
    ((deliveries_follow_dispatches {} acmeState reachable_acmeState hseq).2 ⟨7⟩ channel hl).1⟩

end KafkaEdgeRouter.Router
