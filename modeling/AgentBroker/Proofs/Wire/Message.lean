import AgentBroker.Proofs.Wire.Description
import AgentBroker.Wire.Handshake
import AgentBroker.Wire.Message

/-!
# Lawful messages
-/

namespace AgentBroker

open Json LawfulWire

variable {p : Float → Prop}

instance : Doubles CallContent where
  doubles
    | .text s => doubles s
    | .query q => doubles q
    | .nothing => []

instance : LawfulWire CallContent where
  printable c h := by
    delta instWireCallContent
    cases c with
    | text s => exact printable_variant.mpr (printable s h)
    | query q => exact printable_variant.mpr (printable q h)
    | nothing => exact printable_ofString _
  ofJson?_toJson c h := by
    delta instWireCallContent
    cases c with
    | text s => exact map_ofJson?_toJson s h
    | query q => exact map_ofJson?_toJson q h
    | nothing => rfl
  yields_ofJson? j := by
    delta instWireCallContent
    refine .bind_any fun choice => ?_
    split
    · exact (yields_ofJson? _).map fun _ h => h
    · exact (yields_ofJson? _).map fun _ h => h
    · exact .ite nofun
    · exact .none

instance : Doubles Proposal where
  doubles
    | .text s => doubles s
    | .offers instances => doubles instances

instance : LawfulWire Proposal where
  printable c h := by
    delta instWireProposal
    cases c with
    | text s => exact printable_variant.mpr (printable s h)
    | offers instances => exact printable_variant.mpr (printable instances h)
  ofJson?_toJson c h := by
    delta instWireProposal
    cases c with
    | text s => exact map_ofJson?_toJson s h
    | offers instances => exact map_ofJson?_toJson instances h
  yields_ofJson? j := by
    delta instWireProposal
    refine .bind_any fun choice => ?_
    split
    · exact (yields_ofJson? _).map fun _ h => h
    · exact (yields_ofJson? _).map fun _ h => h
    · exact .none

instance : Doubles Step where
  doubles
    | .call content => doubles content
    | .propose proposal => doubles proposal
    | .accept => []
    | .decline => []

instance : LawfulWire Step where
  printable s h := by
    delta instWireStep
    cases s with
    | call content => exact printable_variant.mpr (printable content h)
    | propose proposal => exact printable_variant.mpr (printable proposal h)
    | accept => exact printable_ofString _
    | decline => exact printable_ofString _
  ofJson?_toJson s h := by
    delta instWireStep
    cases s with
    | call content => exact map_ofJson?_toJson content h
    | propose proposal => exact map_ofJson?_toJson proposal h
    | accept => rfl
    | decline => rfl
  yields_ofJson? j := by
    delta instWireStep
    refine .bind_any fun choice => ?_
    split
    · exact (yields_ofJson? _).map fun _ h => h
    · exact (yields_ofJson? _).map fun _ h => h
    · exact .ite nofun
    · exact .ite nofun
    · exact .none

instance : Doubles NegotiationMessage := ⟨fun m => doubles m.step⟩

instance : LawfulWire NegotiationMessage where
  printable m h := by
    have step : Each (·.isFinite) m.step := h
    delta instWireNegotiationMessage
    simp [step]
  ofJson?_toJson m h := by
    have step : Each ReadsBack m.step := h
    delta instWireNegotiationMessage
    simp [List.lookup_cons, step]
  yields_ofJson? j := by
    delta instWireNegotiationMessage
    refine .bind_any fun ms => ?_
    split
    · exact .bind_any fun msgId => .bind_any fun target =>
        (yields_field? _).bind fun step h => .pure h
    · exact .none

instance : Doubles Body where
  doubles
    | .text s => doubles s
    | .negotiation m => doubles m

instance : LawfulWire Body where
  printable b h := by
    delta instWireBody
    cases b with
    | text s => exact printable_variant.mpr (printable s h)
    | negotiation m => exact printable_variant.mpr (printable m h)
  ofJson?_toJson b h := by
    delta instWireBody
    cases b with
    | text s => exact map_ofJson?_toJson s h
    | negotiation m => exact map_ofJson?_toJson m h
  yields_ofJson? j := by
    delta instWireBody
    refine .bind_any fun choice => ?_
    split
    · exact (yields_ofJson? _).map fun _ h => h
    · exact (yields_ofJson? _).map fun _ h => h
    · exact .none

instance : Doubles Letter := ⟨fun l => doubles l.body⟩

instance : LawfulWire Letter where
  printable l h := by
    have body : Each (·.isFinite) l.body := h
    delta instWireLetter
    simp [body]
  ofJson?_toJson l h := by
    have body : Each ReadsBack l.body := h
    delta instWireLetter
    simp [List.lookup_cons, body]
  yields_ofJson? j := by
    delta instWireLetter
    refine .bind_any fun ms => ?_
    split
    · exact .bind_any fun conversationId => .bind_any fun destination =>
        (yields_field? _).bind fun body h => .pure h
    · exact .none

instance : Doubles Search := ⟨fun s => doubles s.query⟩

instance : LawfulWire Search where
  printable s h := by
    have query : Each (·.isFinite) s.query := h
    delta instWireSearch
    simp [query]
  ofJson?_toJson s h := by
    have query : Each ReadsBack s.query := h
    delta instWireSearch
    simp [List.lookup_cons, query]
  yields_ofJson? j := by
    delta instWireSearch
    refine .bind_any fun ms => ?_
    split
    · exact .bind_any fun searchId => (yields_field? _).bind fun query h => .pure h
    · exact .none

theorem printable_instanceRecord {i : Instance} (h : Each (·.isFinite) i) :
    (instanceRecord i).Printable := by
  simp [instanceRecord, h]

theorem map_instanceRecord? {f : Instance → Request} {i : Instance} (h : Each ReadsBack i) :
    (instanceRecord? (instanceRecord i)).map f = some (f i) := by
  simp [instanceRecord?, instanceRecord, h]

theorem yields_instanceRecord? (j : Json) : Yields (Each (·.isFinite)) (instanceRecord? j) := by
  rw [instanceRecord?]
  refine .bind_any fun ms => ?_
  split
  · exact yields_field? _
  · exact .none

instance : Doubles Request where
  doubles
    | .sendMessage letter => doubles letter
    | .registerService i => doubles i
    | .unregisterService i => doubles i
    | .registerDescription i => doubles i
    | .unregisterDescription => []
    | .searchAgents s => doubles s
    | .searchServices s => doubles s

instance : LawfulWire Request where
  printable r h := by
    delta instWireRequest
    cases r with
    | sendMessage letter => exact printable_variant.mpr (printable letter h)
    | registerService i => exact printable_variant.mpr (printable_instanceRecord h)
    | unregisterService i => exact printable_variant.mpr (printable_instanceRecord h)
    | registerDescription i => exact printable_variant.mpr (printable_instanceRecord h)
    | unregisterDescription => exact printable_ofString _
    | searchAgents s => exact printable_variant.mpr (printable s h)
    | searchServices s => exact printable_variant.mpr (printable s h)
  ofJson?_toJson r h := by
    delta instWireRequest
    cases r with
    | sendMessage letter => exact map_ofJson?_toJson letter h
    | registerService i => exact map_instanceRecord? h
    | unregisterService i => exact map_instanceRecord? h
    | registerDescription i => exact map_instanceRecord? h
    | unregisterDescription => rfl
    | searchAgents s => exact map_ofJson?_toJson s h
    | searchServices s => exact map_ofJson?_toJson s h
  yields_ofJson? j := by
    delta instWireRequest
    refine .bind_any fun choice => ?_
    split
    · exact (yields_ofJson? _).map fun _ h => h
    · exact (yields_instanceRecord? _).map fun _ h => h
    · exact (yields_instanceRecord? _).map fun _ h => h
    · exact (yields_instanceRecord? _).map fun _ h => h
    · exact .ite nofun
    · exact (yields_ofJson? _).map fun _ h => h
    · exact (yields_ofJson? _).map fun _ h => h
    · exact .none

instance : NeverNull Request := ⟨fun r => by cases r <;> exact nofun⟩

instance : Doubles Envelope := ⟨fun e => doubles e.request⟩

instance : LawfulWire Envelope where
  printable e h := by
    have request : Each (·.isFinite) e.request := h
    delta instWireEnvelope
    simp [request]
  ofJson?_toJson e h := by
    have request : Each ReadsBack e.request := h
    delta instWireEnvelope
    simp [List.lookup_cons, request]
  yields_ofJson? j := by
    delta instWireEnvelope
    refine .bind_any fun ms => ?_
    split
    · exact .bind_any fun msgId => (yields_optionalField? _).bind fun request h => .pure h
    · exact .none

instance : Doubles Operation := ⟨fun _ => []⟩
instance : Doubles ErrorReport := ⟨fun _ => []⟩

instance : Plain Operation := ⟨fun _ => rfl⟩
instance : Plain ErrorReport := ⟨fun _ => rfl⟩

instance : LawfulWire Operation where
  printable op _ := printable_ofString op.label
  ofJson?_toJson op _ := by cases op <;> rfl
  yields_ofJson? _ := .of_forall each_of_plain _

instance : LawfulWire ErrorReport where
  printable r _ := by
    delta instWireErrorReport
    obtain ⟨operation, conversationId, msgId⟩ := r
    cases conversationId <;> cases msgId <;> simp [givenMember]
  ofJson?_toJson r _ := by
    delta instWireErrorReport
    obtain ⟨operation, conversationId, msgId⟩ := r
    cases conversationId <;> cases msgId <;> simp [givenMember, List.lookup_cons]
  yields_ofJson? _ := .of_forall each_of_plain _

instance : Doubles Delivery := ⟨fun d => doubles d.body⟩

instance : LawfulWire Delivery where
  printable d h := by
    have body : Each (·.isFinite) d.body := h
    delta instWireDelivery
    simp [body]
  ofJson?_toJson d h := by
    have body : Each ReadsBack d.body := h
    delta instWireDelivery
    simp [List.lookup_cons, body]
  yields_ofJson? j := by
    delta instWireDelivery
    refine .bind_any fun ms => ?_
    split
    · exact .bind_any fun origin => .bind_any fun conversationId =>
        (yields_field? _).bind fun body h => .pure h
    · exact .none

instance : Doubles News where
  doubles
    | .error report => doubles report
    | .undeliverable _ _ => []
    | .searchResult _ _ => []
    | .delivery d => doubles d

instance : LawfulWire News where
  printable n h := by
    delta instWireNews
    cases n with
    | error report => exact printable_variant.mpr (printable report h)
    | undeliverable conversationId destination => simp
    | searchResult searchId agents => simp
    | delivery d => exact printable_variant.mpr (printable d h)
  ofJson?_toJson n h := by
    delta instWireNews
    cases n with
    | error report => exact map_ofJson?_toJson report h
    | undeliverable conversationId destination => simp [List.lookup_cons]
    | searchResult searchId agents => simp [List.lookup_cons]
    | delivery d => exact map_ofJson?_toJson d h
  yields_ofJson? j := by
    delta instWireNews
    refine .bind_any fun choice => ?_
    split
    · split
      · exact (yields_ofJson? _).map fun _ h => h
      · refine .bind_any fun ms => ?_
        split
        · exact .bind_any fun conversationId => .bind_any fun destination => .pure nofun
        · exact .none
      · refine .bind_any fun ms => ?_
        split
        · exact .bind_any fun searchId => .bind_any fun agents => .pure nofun
        · exact .none
      · exact (yields_ofJson? _).map fun _ h => h
      · exact .none
    · exact .none

instance : NeverNull News := ⟨fun n => by cases n <;> exact nofun⟩

instance : Doubles Notice := ⟨fun n => doubles n.news⟩

instance : LawfulWire Notice where
  printable n h := by
    have news : Each (·.isFinite) n.news := h
    delta instWireNotice
    simp [news]
  ofJson?_toJson n h := by
    have news : Each ReadsBack n.news := h
    delta instWireNotice
    simp [List.lookup_cons, news]
  yields_ofJson? j := by
    delta instWireNotice
    refine .bind_any fun ms => ?_
    split
    · exact .bind_any fun answerId => (yields_optionalField? _).bind fun news h => .pure h
    · exact .none

instance : Doubles Introduction := ⟨fun _ => []⟩
instance : Doubles Challenge := ⟨fun _ => []⟩
instance : Doubles Answer := ⟨fun _ => []⟩
instance : Doubles Verdict := ⟨fun _ => []⟩

instance : Plain Introduction := ⟨fun _ => rfl⟩
instance : Plain Challenge := ⟨fun _ => rfl⟩
instance : Plain Answer := ⟨fun _ => rfl⟩
instance : Plain Verdict := ⟨fun _ => rfl⟩

instance : LawfulWire Introduction where
  printable m _ := by
    delta instWireIntroduction
    simp
  ofJson?_toJson m _ := by
    delta instWireIntroduction
    simp
  yields_ofJson? _ := .of_forall each_of_plain _

instance : LawfulWire Challenge where
  printable c _ := by
    delta instWireChallenge
    cases c with
    | phrase s => exact printable_variant.mpr (printable_ofString s)
    | failure => exact printable_ofString _
  ofJson?_toJson c _ := by cases c <;> rfl
  yields_ofJson? _ := .of_forall each_of_plain _

instance : LawfulWire Answer where
  printable m _ := by
    delta instWireAnswer
    simp
  ofJson?_toJson m _ := by
    delta instWireAnswer
    simp
  yields_ofJson? _ := .of_forall each_of_plain _

instance : LawfulWire Verdict where
  printable m _ := by
    delta instWireVerdict
    simp
  ofJson?_toJson m _ := by
    delta instWireVerdict
    simp
  yields_ofJson? _ := .of_forall each_of_plain _

end AgentBroker
