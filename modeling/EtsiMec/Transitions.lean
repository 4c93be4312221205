import EtsiMec.Exchange

/-! What each event of an exchange can do, said once. -/
namespace EtsiMec.Exchange

open Effect

variable {rest : Rest} {transport : Transport} {build : Build} {x y : Exchange rest}

/-- The ID a manager reads off a callback reference. -/
def addressee (transport : Transport) (m : AppContextManager) (callbackReference : String) : Option String :=
  (transport.split (transport.relativeUri m.theNotificationUri callbackReference)).getLast?

theorem addressee_callback {m : AppContextManager} {ueAppId : String}
    (listens : transport.listens m.theNotificationUri) (plain : Plain ueAppId) :
    addressee transport m (m.callbackReference ueAppId) = some ueAppId :=
  transport.last_token m.theNotificationUri ueAppId listens plain

theorem deliver_skipped {m : AppContextManager} {elem : Notification}
    (skipped : deliver transport build m elem = .ok .skipped) :
    transport.validate elem.callbackReference = false ∨ elem.referenceUri = "" := by
  unfold deliver at skipped
  split at skipped
  · contradiction
  split at skipped
  · rename_i invalid
    exact .inl (by simpa using invalid)
  right
  by_contra filled
  rw [notificationEvent,if_neg filled] at skipped
  dsimp only at skipped
  split at skipped <;> simp at skipped

theorem deliver_answered {m n : AppContextManager} {elem : Notification} {code : Nat}
    (answered : deliver transport build m elem = .ok (.answered code n)) :
    (code = StatusCode.noContent ∧ ∃ ueAppId desc,
      addressee transport m elem.callbackReference = some ueAppId ∧
      m.theContexts.lookup ueAppId = some desc ∧ n = m.renewed ueAppId desc elem.referenceUri) ∨
    (code ≠ StatusCode.noContent ∧ n = m ∧
      ∀ ueAppId, addressee transport m elem.callbackReference = some ueAppId → ueAppId ∉ m.theContexts) := by
  unfold deliver at answered
  split at answered
  · contradiction
  split at answered
  · simp at answered
  cases event : notificationEvent elem.referenceUri with
  | error error => simp [event] at answered
  | ok json =>
    simp only [event,AppContextManager.handleNotification_field
      (AppContextManager.notificationEvent_field event).2] at answered
    change _ at answered
    unfold addressee
    cases last : (transport.split
        (transport.relativeUri m.theNotificationUri elem.callbackReference)).getLast? with
    | none =>
      simp only [last,Except.ok.injEq,Delivery.answered.injEq] at answered
      obtain ⟨rfl,rfl⟩ := answered
      exact .inr ⟨transport.thrown_ne,rfl,by simp⟩
    | some ueAppId =>
      simp only [last] at answered
      split at answered
      · rename_i reply after ran
        split at ran
        · contradiction
        split at ran
        · contradiction
        · rename_i desc known
          cases ran
          cases answered
          exact .inl ⟨rfl,ueAppId,desc,rfl,known,rfl⟩
      · rename_i error after ran
        split at ran
        · contradiction
        split at ran
        · rename_i unknown
          cases ran
          cases answered
          refine .inr ⟨transport.thrown_ne,rfl,fun other same member => ?_⟩
          cases same
          obtain ⟨desc,known⟩ := KeyedMap.mem_iff_lookup.mp member
          simp [unknown] at known
        · contradiction
      · contradiction

theorem deliver_attempted {m n : AppContextManager} {elem : Notification} {code : Nat}
    (answered : deliver transport build m elem = .ok (.answered code n)) :
    transport.validate elem.callbackReference = true ∧ elem.referenceUri ≠ "" := by
  unfold deliver at answered
  split at answered
  · contradiction
  split at answered
  · simp at answered
  rename_i valid
  refine ⟨by simpa using valid,fun empty => ?_⟩
  rw [notificationEvent,if_pos empty] at answered
  simp at answered

def followUp (build : Build) (elem : Notification) :
    Delivery → Program (StaticUeAppLcmProxy rest) Exception Unit
  | .skipped => pure ()
  | .answered code _ =>
    if code ≠ StatusCode.noContent then StaticUeAppLcmProxy.purge build elem.contextId >>= fun _ => pure ()
    else pure ()

/-- A delivery and what follows it are one turn of the loop of `notifyClients`. -/
theorem notifyClient_deliver {m : AppContextManager} {elem : Notification} {delivery : Delivery}
    (delivered : deliver transport build m elem = .ok delivery)
    {post : Notification → StaticUeAppLcmProxy.PostResult}
    (posts : ∀ code n, delivery = .answered code n → post elem = .status code) :
    (StaticUeAppLcmProxy.notifyClient build transport.validate post elem :
      Program (StaticUeAppLcmProxy rest) Exception Unit) = followUp build elem delivery := by
  have ready : StaticUeAppLcmProxy.Ready build elem := by
    rintro rfl
    unfold deliver at delivered
    split at delivered
    · contradiction
    · rename_i filled
      simpa [not_or,and_assoc] using filled
  rw [StaticUeAppLcmProxy.notifyClient_ready_eq ready]
  cases delivery with
  | skipped =>
    refine if_pos ?_
    rcases deliver_skipped delivered with invalid | empty
    · simp [invalid]
    · simp [empty]
  | answered code n =>
    obtain ⟨valid,filled⟩ := deliver_attempted delivered
    rw [if_neg (by simp [valid,filled]),posts code n rfl]
    rfl

def OnRegistry : Event rest → Prop
  | .addApp _ | .delApp _ => True
  | _ => False

def OnRoutes : Event rest → Prop
  | .associateAddress .. | .removeAddress .. => True
  | _ => False

inductive Transition (transport : Transport) (build : Build) (x : Exchange rest) :
    Event rest → Exchange rest → Prop where
  | unchanged (event : Event rest) : Transition transport build x event x
  | registry {event : Event rest} (kind : OnRegistry event) (theApplications : Registry rest) :
      Transition transport build x event
        { x with proxy := { x.proxy with theApplications := theApplications } }
  | released {event : Event rest} {address appName : String} {value : Option String} {list : NotificationList}
      {s : StaticUeAppLcmProxy rest} (kind : OnRoutes event) (changed : KeyedMap.view s.theTable =
        Function.update (KeyedMap.view x.proxy.theTable) ⟨address,appName⟩ value)
      (named : appName ≠ "") (filled : ∀ edgeRouter, value = some edgeRouter → edgeRouter ≠ "")
      (rerouted : StaticUeAppLcmProxy.Rerouted x.proxy s appName list) :
      Transition transport build x event { x with
        proxy := s
        threads := x.threads ++ [⟨list.map (Post.mk x.threads.length),none⟩]
        issued := x.issued ++ list.map (Post.mk x.threads.length) }
  | skipped {k : Nat} {post : Post} {others : List Post} (here : x.threads[k]? = some ⟨post :: others,none⟩)
      (invalid : transport.validate post.notification.callbackReference = false ∨
        post.notification.referenceUri = "") :
      Transition transport build x (.deliver k) { x with threads := x.threads.set k ⟨others,none⟩ }
  | accepted {k : Nat} {post : Post} {others : List Post} (here : x.threads[k]? = some ⟨post :: others,none⟩)
      {ueAppId : String} {desc : AppContextManager.Desc}
      (leads : addressee transport x.manager post.notification.callbackReference = some ueAppId)
      (known : x.manager.theContexts.lookup ueAppId = some desc) :
      Transition transport build x (.deliver k) { x with
        manager := x.manager.renewed ueAppId desc post.notification.referenceUri
        threads := x.threads.set k ⟨others,none⟩
        accepted := x.accepted ++ [post] }
  | refused {k : Nat} {post : Post} {others : List Post} (here : x.threads[k]? = some ⟨post :: others,none⟩)
      (unknown : ∀ ueAppId, addressee transport x.manager post.notification.callbackReference = some ueAppId →
        ueAppId ∉ x.manager.theContexts) :
      Transition transport build x (.deliver k) { x with
        threads := x.threads.set k ⟨others,some post.notification.contextId⟩
        refused := x.refused ++ [post] }
  | purgedNothing {k : Nat} {others : List Post} {contextId : String}
      (here : x.threads[k]? = some ⟨others,some contextId⟩)
      (gone : x.proxy.theApplicationsByContextId.lookup contextId = none) :
      Transition transport build x (.purge k) { x with threads := x.threads.set k ⟨others,none⟩ }
  | purged {k : Nat} {others : List Post} {contextId : String} {desc : Desc}
      (here : x.threads[k]? = some ⟨others,some contextId⟩)
      (live : x.proxy.theApplicationsByContextId.lookup contextId = some desc) :
      Transition transport build x (.purge k) { x with
        proxy := StaticUeAppLcmProxy.erased x.proxy contextId desc
        threads := x.threads.set k ⟨others,none⟩ }
  | declined {uuid ueAppId clientAddress : String} {info : AppInfo rest} {reply : InFlight}
      (addressed : reply.ueAppId = ueAppId)
      (useless : ∀ (response : AppContext rest) uri,
        ¬AppContextManager.Accepted rest reply.code reply.body response uri) :
      Transition transport build x (.request uuid ueAppId clientAddress info) { x with
        replies := x.replies ++ [reply] }
  | created {uuid ueAppId clientAddress edgeRouter : String} {info : AppInfo rest}
      {context response : AppContext rest} (made : x.manager.contextRequest ueAppId info = .ok context)
      (grants : StaticUeAppLcmProxy.Grants x.proxy clientAddress context edgeRouter)
      (answers : context.Answers response uuid edgeRouter) :
      Transition transport build x (.request uuid ueAppId clientAddress info) { x with
        proxy := StaticUeAppLcmProxy.created x.proxy uuid clientAddress context edgeRouter
        replies := x.replies ++ [⟨ueAppId,StatusCode.created,response.toJson⟩] }
  | dropped {k : Nat} {reply : InFlight} (here : x.replies[k]? = some reply)
      (useless : ∀ (response : AppContext rest) uri,
        ¬AppContextManager.Accepted rest reply.code reply.body response uri) :
      Transition transport build x (.store k) { x with replies := x.replies.eraseIdx k }
  | stored {k : Nat} {reply : InFlight} (here : x.replies[k]? = some reply) {response : AppContext rest}
      {uri : String} (accepted : AppContextManager.Accepted rest reply.code reply.body response uri) :
      Transition transport build x (.store k) { x with
        manager := x.manager.stored reply.ueAppId uri response.contextId
        replies := x.replies.eraseIdx k }

theorem registry_transition {event : Event rest} (kind : OnRegistry event)
    (update : Registry rest → Registry rest × Bool)
    (taken : (StaticUeAppLcmProxy.onRegistry update x.proxy).state?.map (fun s => { x with proxy := s }) = some y) :
    Transition transport build x event y := by
  cases taken
  exact .registry kind _

theorem request_transition (routed : StaticUeAppLcmProxy.Routed x.proxy) {uuid ueAppId clientAddress : String}
    {info : AppInfo rest} (taken : step transport build x (.request uuid ueAppId clientAddress info) = some y) :
    Transition transport build x (.request uuid ueAppId clientAddress info) y := by
  simp only [step] at taken
  cases made : x.manager.contextRequest ueAppId info with
  | error error =>
    simp only [made,Option.some.injEq] at taken
    subst taken
    exact .unchanged _
  | ok context =>
    have proper := (AppContextManager.contextRequest_proper made).1
    simp only [made,AppContext.toJson] at taken
    rw [StaticUeAppLcmProxy.handleContextCreate_eq rfl (AppContext.ofJson_eq context),Program.bind_apply] at taken
    cases ran : StaticUeAppLcmProxy.createContext build uuid clientAddress context x.proxy with
    | halted reason => simp [ran] at taken
    | threw error s =>
      have same := StaticUeAppLcmProxy.createContext_atomic _ _ _ _ _ _ ran
      subst same
      simp only [ran,Option.some.injEq] at taken
      subst taken
      refine .declined rfl fun response uri accepted => ?_
      have object := AppContext.ofJson_object accepted.decoded
      have found := response.appInfo_object
      rw [object] at found
      contradiction
    | returned response s =>
      simp only [ran] at taken
      rcases StaticUeAppLcmProxy.createContext_returned ran with
        ⟨_,rfl,rfl⟩ | ⟨edgeRouter,grants,given,_,answers,rfl⟩
      · obtain ⟨detail,answered⟩ := UeAppLcmProxy.answerCreate_proper build proper x.proxy
        simp only [answered,Option.some.injEq] at taken
        subst taken
        exact .declined rfl fun response uri accepted => absurd accepted.created
          (by simp [UeAppLcmProxy.refuse,StatusCode.forbidden,StatusCode.created])
      · have filled := StaticUeAppLcmProxy.route_filled routed.filled grants.routed
        simp only [UeAppLcmProxy.answerCreate_answers build answers given filled,Option.some.injEq] at taken
        subst taken
        exact .created made grants answers

theorem deliver_transition {k : Nat} (taken : step transport build x (.deliver k) = some y) :
    Transition transport build x (.deliver k) y := by
  simp only [step] at taken
  split at taken
  · rename_i post others here
    cases delivered : deliver transport build x.manager post.notification with
    | error reason => simp [delivered] at taken
    | ok delivery =>
      cases delivery with
      | skipped =>
        simp only [delivered,Option.some.injEq] at taken
        subst taken
        exact .skipped here (deliver_skipped delivered)
      | answered code m =>
        simp only [delivered] at taken
        rcases deliver_answered delivered with ⟨ok,ueAppId,desc,leads,known,rfl⟩ | ⟨other,rfl,unknown⟩
        · rw [if_neg (not_not.mpr ok)] at taken
          cases taken
          exact .accepted here leads known
        · rw [if_pos other] at taken
          cases taken
          exact .refused here unknown
  · contradiction

theorem purge_transition {k : Nat} (taken : step transport build x (.purge k) = some y) :
    Transition transport build x (.purge k) y := by
  simp only [step] at taken
  split at taken
  · rename_i others contextId here
    cases ran : StaticUeAppLcmProxy.purge build contextId x.proxy with
    | halted reason => simp [ran] at taken
    | threw error s => exact absurd ran (StaticUeAppLcmProxy.purge_silent _ _ _ _)
    | returned flag s =>
      simp only [ran,Outcome.state?_returned,Option.map_some,Option.some.injEq] at taken
      subst taken
      rcases StaticUeAppLcmProxy.purge_returned ran with ⟨gone,_,rfl⟩ | ⟨desc,live,_,rfl⟩
      · exact .purgedNothing here gone
      · exact .purged here live
  · contradiction

theorem store_transition {k : Nat} (taken : step transport build x (.store k) = some y) :
    Transition transport build x (.store k) y := by
  simp only [step] at taken
  split at taken
  · rename_i reply here
    obtain ⟨m,left,rfl⟩ := Option.map_eq_some_iff.mp taken
    cases ran : AppContextManager.contextStore rest build transport.safeProblemDetailsString reply.ueAppId
        reply.code reply.body x.manager with
    | halted reason => simp [ran] at left
    | threw error n =>
      have same := AppContextManager.contextStore_atomic _ _ _ ran
      rw [ran,Outcome.state?_threw,Option.some.injEq] at left
      subst left same
      refine .dropped here fun response uri accepted => ?_
      rw [AppContextManager.contextStore_accepted accepted] at ran
      contradiction
    | returned pair n =>
      rw [ran,Outcome.state?_returned,Option.some.injEq] at left
      subst left
      obtain ⟨response,uri,accepted,rfl⟩ := AppContextManager.contextStore_returned ran
      exact .stored here accepted
  · contradiction

theorem release_transition {event : Event rest} (kind : OnRoutes event)
    {outcome : Outcome (StaticUeAppLcmProxy rest) Exception NotificationList}
    (taken : release x outcome = some y) (threw : ∀ error s, outcome = .threw error s → s = x.proxy)
    (returned : ∀ list s, outcome = .returned list s → ∃ address appName value,
      KeyedMap.view s.theTable = Function.update (KeyedMap.view x.proxy.theTable) ⟨address,appName⟩ value ∧
      appName ≠ "" ∧ (∀ edgeRouter, value = some edgeRouter → edgeRouter ≠ "") ∧
      StaticUeAppLcmProxy.Rerouted x.proxy s appName list) :
    Transition transport build x event y := by
  cases outcome with
  | halted reason => contradiction
  | threw error s =>
    cases taken
    rw [threw error s rfl]
    exact .unchanged event
  | returned list s =>
    cases taken
    obtain ⟨address,appName,value,changed,named,filled,rerouted⟩ := returned list s rfl
    exact .released kind changed named filled rerouted

theorem step_transition (routed : StaticUeAppLcmProxy.Routed x.proxy) {event : Event rest}
    (taken : step transport build x event = some y) : Transition transport build x event y := by
  cases event with
  | addApp info => exact registry_transition trivial _ taken
  | delApp info => exact registry_transition trivial _ taken
  | associateAddress address appName edgeRouter =>
    refine release_transition trivial taken
      (fun _ _ threw => StaticUeAppLcmProxy.associateSection_atomic _ _ _ _ _ _ threw)
      fun list s returned => ?_
    obtain ⟨named,filled,changed,rerouted⟩ := StaticUeAppLcmProxy.associateSection_reroutes routed returned
    exact ⟨address,appName,some edgeRouter,changed,named,by rintro _ ⟨⟩; exact filled,rerouted⟩
  | removeAddress address appName =>
    refine release_transition trivial taken
      (fun _ _ threw => StaticUeAppLcmProxy.removeSection_atomic _ _ _ _ _ threw)
      fun list s returned => ?_
    obtain ⟨named,changed,rerouted⟩ := StaticUeAppLcmProxy.removeSection_reroutes routed returned
    exact ⟨address,appName,none,changed,named,by simp,rerouted⟩
  | deliver k => exact deliver_transition taken
  | purge k => exact purge_transition taken
  | request uuid ueAppId clientAddress info => exact request_transition routed taken
  | store k => exact store_transition taken

theorem release_proxy {outcome : Outcome (StaticUeAppLcmProxy rest) Exception NotificationList}
    (taken : release x outcome = some y) : outcome.state? = some y.proxy := by
  cases outcome <;> cases taken <;> rfl

/-- What an event does to the proxy is a step of the proxy. -/
theorem step_proxy {event : Event rest} (taken : step transport build x event = some y) :
    y.proxy = x.proxy ∨ ∃ call, StaticUeAppLcmProxy.step build x.proxy call = some y.proxy := by
  cases event with
  | addApp info =>
    cases taken
    exact .inr ⟨.addApp info,rfl⟩
  | delApp info =>
    cases taken
    exact .inr ⟨.delApp info,rfl⟩
  | associateAddress address appName edgeRouter =>
    have left := release_proxy taken
    exact .inr ⟨.associateAddress address appName edgeRouter,
      by simpa [StaticUeAppLcmProxy.step,StaticUeAppLcmProxy.exec] using left⟩
  | removeAddress address appName =>
    have left := release_proxy taken
    exact .inr ⟨.removeAddress address appName,
      by simpa [StaticUeAppLcmProxy.step,StaticUeAppLcmProxy.exec] using left⟩
  | deliver k =>
    left
    cases deliver_transition taken with
    | registry kind => exact kind.elim
    | released kind => exact kind.elim
    | _ => rfl
  | purge k =>
    simp only [step] at taken
    split at taken
    · rename_i others contextId here
      obtain ⟨s,left,rfl⟩ := Option.map_eq_some_iff.mp taken
      exact .inr ⟨.purge contextId,by simpa [StaticUeAppLcmProxy.step,StaticUeAppLcmProxy.exec] using left⟩
    · contradiction
  | request uuid ueAppId clientAddress info =>
    simp only [step] at taken
    cases made : x.manager.contextRequest ueAppId info with
    | error error =>
      simp only [made,Option.some.injEq] at taken
      subst taken
      exact .inl rfl
    | ok context =>
      right
      refine ⟨.createContext uuid clientAddress context,?_⟩
      simp only [made,AppContext.toJson] at taken
      rw [StaticUeAppLcmProxy.handleContextCreate_eq rfl (AppContext.ofJson_eq context)] at taken
      rw [StaticUeAppLcmProxy.step,StaticUeAppLcmProxy.exec,Program.state?_map]
      apply Program.state?_bind_readOnly (UeAppLcmProxy.readOnly_answerCreate build)
      split at taken
      · rename_i reply s ran
        cases taken
        rw [ran]
        rfl
      · rename_i error s ran
        cases taken
        rw [ran]
        rfl
      · contradiction
  | store k =>
    left
    cases store_transition taken with
    | registry kind => exact kind.elim
    | released kind => exact kind.elim
    | _ => rfl

/-- The proxy of an exchange goes through states of the proxy. -/
theorem run_proxy_reachable (reached : StaticUeAppLcmProxy.Reachable build x.proxy) {events : List (Event rest)}
    (ran : Run.run (step transport build) x events = some y) : StaticUeAppLcmProxy.Reachable build y.proxy := by
  have kept : ∀ (x : Exchange rest) event y, StaticUeAppLcmProxy.Reachable build x.proxy →
      step transport build x event = some y → StaticUeAppLcmProxy.Reachable build y.proxy := by
    intro x event y reached taken
    rcases step_proxy taken with same | ⟨call,inner⟩
    · rw [same]
      exact reached
    · exact Run.Reachable.snoc reached inner
  exact Run.Reachable.invariant kept reached ⟨events,ran⟩

theorem start_reachable (theNotificationUri theProxyUri : String) :
    StaticUeAppLcmProxy.Reachable build (start theNotificationUri theProxyUri : Exchange rest).proxy := ⟨[],rfl⟩

end EtsiMec.Exchange
