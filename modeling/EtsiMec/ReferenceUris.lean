import EtsiMec.Exchange

/-! The reference URIs a manager holds. A creation takes one from an answer that has been
decoded twice; a notification takes one from a body that is only asked for the field, which
may be empty there although no `NotificationEvent` can be built with an empty URI. -/
namespace EtsiMec

open Effect

namespace AppContextManager

section Events
variable (rest : Rest) (build : Build) (safeProblemDetailsString : Json → String) (split : String → List String)

/-- `contextCreate` with any server, in one go: what it reads before it posts is never changed. -/
def contextCreateWith (post : AppContext rest → Except Exception (Nat × Json)) (ueAppId : String)
    (info : AppInfo rest) : Program AppContextManager Exception (String × String) := do
  let m ← Program.get
  let request ← Program.lift (m.contextRequest ueAppId info)
  let ret ← Program.lift (post request)
  contextStore rest build safeProblemDetailsString ueAppId ret.1 ret.2

/-- A call of `contextCreate`, with the ID it draws and what the server does, or a
notification. -/
inductive Event where
  | contextCreate (ueAppId : String) (info : AppInfo rest)
      (post : AppContext rest → Except Exception (Nat × Json))
  | handleNotification (request : NotificationRequest)

def exec : Event rest → Program AppContextManager Exception Unit
  | .contextCreate ueAppId info post =>
    (fun _ => ()) <$> contextCreateWith rest build safeProblemDetailsString post ueAppId info
  | .handleNotification request => (fun _ => ()) <$> handleNotification build split request

def step (m : AppContextManager) (event : Event rest) : Option AppContextManager :=
  (exec rest build safeProblemDetailsString split event m).state?

end Events

def start (theNotificationUri theProxyUri : String) : AppContextManager := ⟨theNotificationUri,theProxyUri,∅⟩

structure Filled (m : AppContextManager) : Prop where
  contexts : ∀ ueAppId desc, m.theContexts.lookup ueAppId = some desc →
    desc.theReferenceUri ≠ "" ∧ desc.theContextId ≠ ""
  referenceUri : ∀ ueAppId uri, m.referenceUri ueAppId = .ok uri → uri ≠ ""

/-- No `NotificationEvent` has the body: the URI is missing or empty. -/
def Unproducible (request : NotificationRequest) : Prop :=
  ∀ json uri, request.body = .ok json → json.stringField? "referenceURI" = some uri → uri = ""

variable {rest : Rest} {build : Build} {safeProblemDetailsString : Json → String}
  {split : String → List String} {m n : AppContextManager}

def Refuses (build : Build) (split : String → List String) (m : AppContextManager) : Event rest → Prop
  | .handleNotification request => Unproducible request →
    ∃ error, handleNotification build split request m = .threw error m
  | .contextCreate _ _ _ => True

/-- An empty URI comes for no context the manager holds. With assertions the path must
not end in an empty token either. -/
def Harmless (build : Build) (split : String → List String) (m : AppContextManager) : Event rest → Prop
  | .handleNotification request => ∀ json ueAppId, request.body = .ok json →
    json.stringField? "referenceURI" = some "" → (split request.relativeUri).getLast? = some ueAppId →
    ueAppId ∉ m.theContexts ∧ (build = .debug → ueAppId ≠ "")
  | .contextCreate _ _ _ => True

theorem unproducible_iff {relativeUri : String} {json : Json} : Unproducible ⟨relativeUri,.ok json⟩ ↔
    ∀ uri event, notificationEvent uri = .ok event →
      json.stringField? "referenceURI" ≠ event.stringField? "referenceURI" := by
  constructor
  · intro unproducible uri event produced same
    obtain ⟨filled,field⟩ := notificationEvent_field produced
    exact filled (unproducible json uri rfl (same.trans field))
  · rintro other json' uri ⟨⟩ field
    by_contra filled
    have produced : notificationEvent uri = .ok (Json.empty.set "referenceURI" (.string uri)) := if_neg filled
    exact other uri _ produced (field.trans (notificationEvent_field produced).2.symm)

/-- An empty URI is refused only if it is for no context, and stops at no assertion. -/
theorem unknown_of_threw {relativeUri ueAppId : String} {json : Json} {error : Exception}
    (field : json.stringField? "referenceURI" = some "") (last : (split relativeUri).getLast? = some ueAppId)
    (threw : handleNotification build split ⟨relativeUri,.ok json⟩ m = .threw error n) :
    ueAppId ∉ m.theContexts ∧ (build = .debug → ueAppId ≠ "") := by
  simp only [handleNotification_field field,last] at threw
  split at threw
  · contradiction
  rename_i running
  cases found : m.theContexts.lookup ueAppId with
  | some desc => simp [found] at threw
  | none =>
    refine ⟨fun member => ?_,?_⟩
    · obtain ⟨desc,there⟩ := KeyedMap.mem_iff_lookup.mp member
      simp [found] at there
    · rintro rfl rfl
      exact running rfl

theorem threw_of_unknown {relativeUri ueAppId uri : String} {json : Json}
    (field : json.stringField? "referenceURI" = some uri) (last : (split relativeUri).getLast? = some ueAppId)
    (unknown : ueAppId ∉ m.theContexts) (named : build = .debug → ueAppId ≠ "") :
    ∃ error, handleNotification build split ⟨relativeUri,.ok json⟩ m = .threw error m := by
  have absent : m.theContexts.lookup ueAppId = none := by
    by_contra present
    obtain ⟨desc,found⟩ := Option.ne_none_iff_exists'.mp present
    exact unknown (KeyedMap.lookup_some_mem found)
  have running : ¬(build.asserts && ueAppId == "") = true := by
    cases build <;> simp [named]
  simp only [handleNotification_field field,last,running,absent]
  exact ⟨_,rfl⟩

/-- A body without the field, and a path without a token, are refused. -/
theorem threw_of_illFormed {relativeUri : String} {json : Json}
    (illFormed : json.stringField? "referenceURI" = none ∨ (split relativeUri).getLast? = none) :
    handleNotification build split ⟨relativeUri,.ok json⟩ m =
      .threw (.runtimeError "Invalid NotificationEvent structure") m := by
  cases field : json.stringField? "referenceURI" with
  | none =>
    simp only [handleNotification,Program.lift_ok,Program.pure_bind_apply,field]
    rfl
  | some uri =>
    have last := illFormed.resolve_left (by simp [field])
    rw [handleNotification_field field,last]

/-- A notification is refused where it should be, exactly if it is harmless. -/
theorem refuses_iff {event : Event rest} : Refuses build split m event ↔ Harmless build split m event := by
  cases event with
  | contextCreate ueAppId info post => exact Iff.rfl
  | handleNotification request =>
    obtain ⟨relativeUri,body⟩ := request
    constructor
    · rintro refuses json ueAppId ⟨⟩ field last
      have unproducible : Unproducible ⟨relativeUri,.ok json⟩ := by
        rintro _ uri ⟨⟩ found
        exact (Option.some.inj (field.symm.trans found)).symm
      obtain ⟨error,threw⟩ := refuses unproducible
      exact unknown_of_threw field last threw
    · intro harmless unproducible
      cases body with
      | error error => exact ⟨error,rfl⟩
      | ok json =>
        cases field : json.stringField? "referenceURI" with
        | none => exact ⟨_,threw_of_illFormed (.inl field)⟩
        | some uri =>
          obtain rfl := unproducible json uri rfl field
          cases last : (split relativeUri).getLast? with
          | none => exact ⟨_,threw_of_illFormed (.inr last)⟩
          | some ueAppId =>
            obtain ⟨unknown,named⟩ := harmless json ueAppId rfl field last
            exact threw_of_unknown field last unknown named

/-- The decoders of the answer see to it that what is stored is not empty. -/
theorem Accepted.filled {code : Nat} {body : Json} {response : AppContext rest} {uri : String}
    (accepted : Accepted rest code body response uri) : uri ≠ "" ∧ response.contextId ≠ "" := by
  constructor
  · have present : response.appInfo.theObject.hasStringField "referenceURI" = true := by
      have message := accepted.message
      unfold AppInfo.message at message
      split at message
      · contradiction
      split at message
      · assumption
      · contradiction
    obtain ⟨value,found⟩ := Option.isSome_iff_exists.mp present
    have checked := AppInfo.checks_errors.mp (AppInfo.validate_ok.mp response.appInfo.accepted).1
    have same := accepted.uri
    rw [AppInfo.referenceUri,if_neg (not_not.mpr accepted.message),found] at same
    cases same
    exact (checked.2.2.2.2 value found).1
  · have present : response.theObject.hasStringField "contextId" = true := by
      have kind := accepted.kind
      unfold AppContext.kind at kind
      split at kind
      · assumption
      · contradiction
    obtain ⟨value,found⟩ := Option.isSome_iff_exists.mp present
    have given := (AppContext.validate_ok.mp response.accepted).1
    rw [AppContext.contextId,Rest.stringOrEmpty_eq,found]
    rintro rfl
    exact given found

/-! ## Steps -/

theorem filled_of_contexts (contexts : ∀ ueAppId desc, m.theContexts.lookup ueAppId = some desc →
    desc.theReferenceUri ≠ "" ∧ desc.theContextId ≠ "") : Filled m := by
  refine ⟨contexts,fun ueAppId uri answered => ?_⟩
  unfold AppContextManager.referenceUri at answered
  split at answered
  · rename_i desc found
    cases answered
    exact (contexts ueAppId desc found).1
  · contradiction

theorem Filled.stored (filled : Filled m) {ueAppId uri contextId : String} (routed : uri ≠ "")
    (given : contextId ≠ "") : Filled (m.stored ueAppId uri contextId) := by
  refine filled_of_contexts fun other desc found => ?_
  rw [AppContextManager.stored,KeyedMap.lookup_emplace] at found
  split at found
  · cases found
    exact ⟨routed,given⟩
  · exact filled.contexts other desc found

theorem Filled.renewed (filled : Filled m) {ueAppId uri : String} {desc : Desc}
    (live : m.theContexts.lookup ueAppId = some desc) (routed : uri ≠ "") :
    Filled (m.renewed ueAppId desc uri) := by
  refine filled_of_contexts fun other after found => ?_
  rw [AppContextManager.renewed,KeyedMap.lookup_insert_eq] at found
  split at found
  · cases found
    exact ⟨routed,(filled.contexts ueAppId desc live).2⟩
  · exact filled.contexts other after found

theorem contextCreateWith_state {post : AppContext rest → Except Exception (Nat × Json)} {ueAppId : String}
    {info : AppInfo rest}
    (left : (contextCreateWith rest build safeProblemDetailsString post ueAppId info m).state? = some n) :
    n = m ∨ ∃ code body response uri, Accepted rest code body response uri ∧
      n = m.stored ueAppId uri response.contextId := by
  have atomic : Program.Atomic (contextCreateWith rest build safeProblemDetailsString post ueAppId info) :=
    Program.atomic_bind Program.readOnly_get fun _ => Program.atomic_bind (Program.readOnly_lift _) fun _ =>
      Program.atomic_bind (Program.readOnly_lift _) fun _ => contextStore_atomic
  refine (atomic.state? left).imp_right ?_
  rintro ⟨pair,returned⟩
  unfold contextCreateWith at returned
  rw [Program.get_bind_apply] at returned
  obtain ⟨request,_,requested,posting⟩ := Program.bind_eq_returned.mp returned
  obtain rfl := (Program.readOnly_lift _).returned requested
  obtain ⟨ret,_,posted,storing⟩ := Program.bind_eq_returned.mp posting
  obtain rfl := (Program.readOnly_lift _).returned posted
  obtain ⟨response,uri,accepted,rfl⟩ := contextStore_returned storing
  exact ⟨ret.1,ret.2,response,uri,accepted,rfl⟩

theorem handleNotification_state {request : NotificationRequest}
    (left : (handleNotification build split request m).state? = some n) :
    n = m ∨ ∃ json uri ueAppId desc, request.body = .ok json ∧ json.stringField? "referenceURI" = some uri ∧
      (split request.relativeUri).getLast? = some ueAppId ∧ m.theContexts.lookup ueAppId = some desc ∧
      n = m.renewed ueAppId desc uri := by
  obtain ⟨relativeUri,body⟩ := request
  cases body with
  | error error => exact .inl (Option.some.inj left).symm
  | ok json =>
    cases field : json.stringField? "referenceURI" with
    | none =>
      rw [threw_of_illFormed (.inl field)] at left
      exact .inl (Option.some.inj left).symm
    | some uri =>
      rw [handleNotification_field field] at left
      cases last : (split relativeUri).getLast? with
      | none =>
        rw [last] at left
        exact .inl (Option.some.inj left).symm
      | some ueAppId =>
        simp only [last] at left
        split at left
        · contradiction
        cases found : m.theContexts.lookup ueAppId with
        | none =>
          rw [found] at left
          exact .inl (Option.some.inj left).symm
        | some desc =>
          rw [found] at left
          exact .inr ⟨json,uri,ueAppId,desc,rfl,field,rfl,found,(Option.some.inj left).symm⟩

theorem filled_step {event : Event rest} (filled : Filled m) (harmless : Harmless build split m event)
    (taken : step rest build safeProblemDetailsString split m event = some n) : Filled n := by
  cases event with
  | contextCreate ueAppId info post =>
    rw [step,exec,Program.state?_map] at taken
    rcases contextCreateWith_state taken with rfl | ⟨code,body,response,uri,accepted,rfl⟩
    · exact filled
    · exact filled.stored accepted.filled.1 accepted.filled.2
  | handleNotification request =>
    rw [step,exec,Program.state?_map] at taken
    rcases handleNotification_state taken with rfl | ⟨json,uri,ueAppId,desc,body,field,last,live,rfl⟩
    · exact filled
    · refine filled.renewed live ?_
      rintro rfl
      exact (harmless json ueAppId body field last).1 (KeyedMap.lookup_some_mem live)

theorem filled_start (theNotificationUri theProxyUri : String) : Filled (start theNotificationUri theProxyUri) :=
  filled_of_contexts fun _ _ found => by simp [start] at found

/-- A manager holds no empty reference URI and refuses what no `NotificationEvent` can be,
throughout exactly the runs in which an empty URI comes for no context that it holds. -/
theorem reference_uris_filled_iff (theNotificationUri theProxyUri : String) (events : List (Event rest)) :
    (Run.Throughout (step rest build safeProblemDetailsString split) Filled
        (start theNotificationUri theProxyUri) events ∧
      Run.Along (step rest build safeProblemDetailsString split) (Refuses build split)
        (start theNotificationUri theProxyUri) events) ↔
    Run.Along (step rest build safeProblemDetailsString split) (Harmless build split)
      (start theNotificationUri theProxyUri) events := by
  constructor
  · rintro ⟨_,refuses⟩
    exact Run.along_imp (fun _ _ => refuses_iff.mp) refuses
  · intro harmless
    refine ⟨Run.throughout_iff.mpr ?_,Run.along_imp (fun _ _ => refuses_iff.mpr) harmless⟩
    rintro front back n rfl taken
    exact Run.invariant (fun _ _ _ filled harmless taken => filled_step filled harmless taken)
      (filled_start _ _) (Run.along_append harmless taken).1 taken

/-! A context is created, then a notification comes for it with an empty URI. -/

def sampleInfo : AppInfo Rest.plain := AppInfo.requested _ (by decide : AppInfo.Limits "app" "provider" "" "") ""

def sampleAnswer : Json :=
  AppContext.fields Rest.plain "c1" "ue1" "" ⟨AppInfo.responseObject Rest.plain "app" "provider" "" "" "http://er1" "",
    AppInfo.responseObject_accepted (by decide) (by decide) _⟩

def emptyNotification : List (Event Rest.plain) :=
  [.contextCreate "ue1" sampleInfo fun _ => .ok (StatusCode.created,sampleAnswer),
    .handleNotification ⟨"/ue1",.ok (Json.empty.set "referenceURI" (.string ""))⟩]

def emptied : AppContextManager :=
  (Run.run (step Rest.plain .release (fun _ => "") Transport.plain.split) (start "http://ue:8080" "http://proxy")
    emptyNotification).get (by decide)

theorem emptyNotification_stored :
    ¬(Run.Throughout (step Rest.plain .release (fun _ => "") Transport.plain.split) Filled
        (start "http://ue:8080" "http://proxy") emptyNotification ∧
      Run.Along (step Rest.plain .release (fun _ => "") Transport.plain.split)
        (Refuses .release Transport.plain.split) (start "http://ue:8080" "http://proxy") emptyNotification) := by
  rintro ⟨throughout,_⟩
  have filled := Run.throughout_iff.mp throughout emptyNotification [] emptied rfl (Option.some_get (by decide)).symm
  exact filled.referenceUri "ue1" "" rfl rfl

end AppContextManager
end EtsiMec
