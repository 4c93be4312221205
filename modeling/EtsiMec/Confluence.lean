import EtsiMec.Associations
import EtsiMec.ServiceRefinement

/-! The order of the calls on the table. What counts in the end is the last effective call on
each key: the table and every descriptor are the same whatever came before it, and in
whatever order the keys were written. -/
namespace EtsiMec.StaticUeAppLcmProxy

open Effect

variable {rest : Rest} {build : Build} {s t t' : StaticUeAppLcmProxy rest}

def Call.OnTable : Call rest → Prop
  | .associateAddress _ _ _ | .removeAddress _ _ => True
  | _ => False

/-- The same contents, whatever the order in the maps. -/
structure SameContents (s t : StaticUeAppLcmProxy rest) : Prop where
  theTable : ∀ key, s.theTable.lookup key = t.theTable.lookup key
  theApplications : ∀ key : String, s.theApplications[key]? = t.theApplications[key]?
  theApplicationsByContextId : ∀ contextId, s.theApplicationsByContextId.lookup contextId =
    t.theApplicationsByContextId.lookup contextId
  theApplicationsByUeAppId : ∀ ueAppId, s.theApplicationsByUeAppId.lookup ueAppId =
    t.theApplicationsByUeAppId.lookup ueAppId

theorem SameContents.listed (same : SameContents s t) : (contexts s).Perm (contexts t) :=
  (KeyedMap.entries_perm same.theApplicationsByContextId).map _

/-! ## One call -/

structure Written (s : StaticUeAppLcmProxy rest) (log : List (AddressAppKey × Option String))
    (t : StaticUeAppLcmProxy rest) : Prop where
  routed : Routed t
  service : Service.of t = (Service.of s).write log
  theApplications : t.theApplications = s.theApplications
  index : t.theApplicationsByUeAppId = s.theApplicationsByUeAppId

/-- A descriptor is the session with what the session follows. -/
theorem Routed.desc_eq (routed : Routed s) (contextId : String) :
    s.theApplicationsByContextId.lookup contextId = ((Service.of s).sessions contextId).map fun session =>
      ⟨session.theAssociateUeAppId,session.theCallbackReference,session.theClientAddress,session.theAppName,
        (Service.follow (Service.of s).table session).getD ""⟩ := by
  change _ = Option.map _ (Option.map _ _)
  cases live : s.theApplicationsByContextId.lookup contextId with
  | none => rfl
  | some desc =>
    have endpoint := routed.endpoint contextId desc live
    rw [endpointOf,← Service.follow_session] at endpoint
    change some desc = some { desc with
      theEdgeRouterEndpoint := (Service.follow (KeyedMap.view s.theTable) desc.session).getD "" }
    rw [← endpoint]

/-- The service is all there is to the table and the descriptors. -/
theorem Written.same {log log' : List (AddressAppKey × Option String)} (written : Written s log t)
    (written' : Written s log' t')
    (same : (Service.of s).write log = (Service.of s).write log') : SameContents t t' := by
  have equal : Service.of t = Service.of t' := by rw [written.service,written'.service,same]
  refine ⟨fun key => ?_,fun key => ?_,fun contextId => ?_,fun ueAppId => ?_⟩
  · exact congrFun (congrArg (fun v : Service => v.table) equal) key
  · rw [written.theApplications,written'.theApplications]
  · rw [written.routed.desc_eq,written'.routed.desc_eq,equal]
  · rw [written.index,written'.index]

end EtsiMec.StaticUeAppLcmProxy
