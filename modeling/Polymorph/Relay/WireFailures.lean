import Polymorph.Relay.Queue

/-!
# What decoding a record may raise

Every exception of `BlindTransportRecord.from_wire` is a protocol error or one that the decoder of
a queued record catches.
-/

set_option autoImplicit false

namespace Polymorph

open JsonText

/-- An exception that the decoder of a queued record reports as a protocol error. -/
def IsWireFailure (e : Exn) : Prop :=
  SealedRelayQueue.isWireViolation e = true ∨ ∃ message, e = .protocolError message

theorem isWireFailure_protocolError (message : String) : IsWireFailure (.protocolError message) :=
  .inr ⟨message, rfl⟩

theorem isWireFailure_keyError (key : String) : IsWireFailure (.keyError key) := .inl rfl

section Decoding

variable (H : Host)

theorem raises_required (payload : List (String × Json)) (key : String) :
    Raises IsWireFailure (required payload key) := by
  unfold required
  split
  · exact raises_ok _
  · exact raises_error (isWireFailure_keyError key)

theorem raises_readVersion (payload : List (String × Json)) (key message : String) :
    Raises IsWireFailure (readVersion H payload key message) := by
  unfold readVersion
  split
  · exact raises_ok _
  · split
    · exact raises_ok _
    · exact raises_error (isWireFailure_protocolError message)
  · exact raises_error (isWireFailure_protocolError message)

theorem raises_parseTime (payload : List (String × Json)) (name : String) :
    Raises IsWireFailure (parseTime H payload name) := by
  unfold parseTime
  split
  · exact raises_ok _
  · exact raises_ok _
  · exact raises_ok _
  · split
    · exact raises_ok _
    · exact raises_error (isWireFailure_protocolError _)
    · exact raises_error (isWireFailure_protocolError _)

theorem raises_transferContext_check (c : TransferContextFields) :
    Raises IsWireFailure c.check := by
  unfold TransferContextFields.check
  refine raises_ite (fun _ => raises_error (isWireFailure_protocolError _)) fun _ => ?_
  refine raises_ite (fun _ => raises_error (isWireFailure_protocolError _)) fun _ => ?_
  refine raises_ite (fun _ => raises_error (isWireFailure_protocolError _)) fun _ => ?_
  exact raises_ok _

theorem raises_transferContext_make (c : TransferContextFields) :
    Raises IsWireFailure (TransferContext.make c) := by
  unfold TransferContext.make
  split
  · exact raises_ok _
  · rename_i e he
    exact raises_error (raises_transferContext_check c e he)

theorem raises_transferContext_fromWire (payload : List (String × Json)) :
    Raises IsWireFailure (TransferContext.fromWire H payload) := by
  unfold TransferContext.fromWire
  refine (raises_readVersion H _ _ _).bind fun _ _ => ?_
  refine (raises_required _ _).bind fun _ _ => ?_
  refine (raises_required _ _).bind fun _ _ => ?_
  refine (raises_required _ _).bind fun _ _ => ?_
  refine (raises_required _ _).bind fun _ _ => ?_
  refine (raises_required _ _).bind fun _ _ => ?_
  refine (raises_required _ _).bind fun _ _ => ?_
  refine (raises_required _ _).bind fun _ _ => ?_
  refine (raises_parseTime H _ _).bind fun _ _ => ?_
  refine (raises_parseTime H _ _).bind fun _ _ => ?_
  exact raises_transferContext_make _

theorem raises_requiredText (payload : List (String × String)) (key : String) :
    Raises IsWireFailure (requiredText payload key) := by
  unfold requiredText
  split
  · exact raises_ok _
  · exact raises_error (isWireFailure_keyError key)

theorem raises_b64Decode (value field : String) (maxBytes : Nat) :
    Raises IsWireFailure (b64Decode value field maxBytes) := by
  unfold b64Decode
  refine raises_ite (fun _ => raises_error (isWireFailure_protocolError _)) fun _ => ?_
  split
  · exact raises_error (isWireFailure_protocolError _)
  · refine raises_ite (fun _ => raises_error (isWireFailure_protocolError _)) fun _ => ?_
    exact raises_ok _

theorem raises_opaqueEnvelope_make (e : OpaqueEnvelopeFields) :
    Raises IsWireFailure (OpaqueEnvelope.make e) := by
  have hcheck : Raises IsWireFailure e.check := by
    unfold OpaqueEnvelopeFields.check
    refine raises_ite (fun _ => raises_error (isWireFailure_protocolError _)) fun _ => ?_
    refine raises_ite (fun _ => raises_error (isWireFailure_protocolError _)) fun _ => ?_
    refine raises_ite (fun _ => raises_error (isWireFailure_protocolError _)) fun _ => ?_
    exact raises_ok _
  unfold OpaqueEnvelope.make
  split
  · exact raises_ok _
  · rename_i x hx
    exact raises_error (hcheck x hx)

theorem raises_opaqueEnvelope_fromWire (payload : List (String × String)) (maxBytes : Nat) :
    Raises IsWireFailure (OpaqueEnvelope.fromWire payload maxBytes) := by
  unfold OpaqueEnvelope.fromWire
  refine (raises_requiredText _ _).bind fun _ _ => ?_
  refine (raises_b64Decode _ _ _).bind fun _ _ => ?_
  refine (raises_requiredText _ _).bind fun _ _ => ?_
  refine (raises_b64Decode _ _ _).bind fun _ _ => ?_
  refine (raises_requiredText _ _).bind fun _ _ => ?_
  refine (raises_b64Decode _ _ _).bind fun _ _ => ?_
  exact raises_opaqueEnvelope_make _

theorem raises_sealedField_fromWire (payload : List (String × Json)) (limits : ProtocolLimits) :
    Raises IsWireFailure (SealedField.fromWire H payload limits) := by
  unfold SealedField.fromWire
  split
  · split
    · split
      · refine (raises_transferContext_fromWire H _).bind fun _ _ => ?_
        refine (raises_opaqueEnvelope_fromWire _ _).bind fun _ _ => ?_
        refine (raises_required _ _).bind fun _ _ => ?_
        exact raises_pure _
      · exact raises_error (isWireFailure_protocolError _)
    · exact raises_error (isWireFailure_protocolError _)
  · exact raises_error (isWireFailure_protocolError _)

theorem raises_recordAuthentication_fromWire (payload : List (String × Json)) :
    Raises IsWireFailure (RecordAuthentication.fromWire H payload) := by
  have hmake : ∀ a, Raises IsWireFailure (RecordAuthentication.make a) := by
    intro a
    have hcheck : Raises IsWireFailure a.check := by
      unfold RecordAuthenticationFields.check
      refine raises_ite (fun _ => raises_error (isWireFailure_protocolError _)) fun _ => ?_
      refine raises_ite (fun _ => raises_error (isWireFailure_protocolError _)) fun _ => ?_
      refine raises_ite (fun _ => raises_error (isWireFailure_protocolError _)) fun _ => ?_
      exact raises_ok _
    unfold RecordAuthentication.make
    split
    · exact raises_ok _
    · rename_i e he
      exact raises_error (hcheck e he)
  unfold RecordAuthentication.fromWire
  split
  · split
    · exact raises_error (isWireFailure_protocolError _)
    · exact hmake _
  · exact raises_error (isWireFailure_protocolError _)

theorem raises_checkFields (recordId : String) (first : TransferContext) (seen : List String)
    (fields : List SealedField) : Raises IsWireFailure (checkFields recordId first seen fields) := by
  induction fields generalizing seen with
  | nil => exact raises_ok _
  | cons item rest ih =>
      unfold checkFields
      refine raises_ite (fun _ => raises_error (isWireFailure_protocolError _)) fun _ => ?_
      refine raises_ite (fun _ => raises_error (isWireFailure_protocolError _)) fun _ => ?_
      refine raises_ite (fun _ => raises_error (isWireFailure_protocolError _)) fun _ => ?_
      split
      · exact raises_error (isWireFailure_protocolError _)
      · exact ih _

theorem raises_record_make (r : RecordFields) :
    Raises IsWireFailure (BlindTransportRecord.make r) := by
  have hcheck : Raises IsWireFailure r.check := by
    unfold RecordFields.check
    split
    · exact raises_error (isWireFailure_protocolError _)
    · refine raises_ite (fun _ => raises_error (isWireFailure_protocolError _)) fun _ => ?_
      split
      · rename_i e he
        exact raises_error (raises_checkFields _ _ _ _ e he)
      · refine raises_ite (fun _ => raises_error (isWireFailure_protocolError _)) fun _ => ?_
        refine raises_ite (fun _ => raises_error (isWireFailure_protocolError _)) fun _ => ?_
        refine raises_ite (fun _ => raises_error (isWireFailure_protocolError _)) fun _ => ?_
        refine raises_ite (fun _ => raises_error (isWireFailure_protocolError _)) fun _ => ?_
        exact raises_ok _
  unfold BlindTransportRecord.make
  split
  · exact raises_ok _
  · rename_i e he
    exact raises_error (hcheck e he)

theorem raises_dictOfItem (item : Json) :
    Raises IsWireFailure (BlindTransportRecord.dictOfItem item) := by
  have htype : ∀ message, IsWireFailure (.typeError message) := fun _ => .inl rfl
  have hvalue : ∀ message, IsWireFailure (.valueError message) := fun _ => .inl rfl
  have hpair : ∀ j, Raises IsWireFailure (BlindTransportRecord.pairOf j) := by
    intro j
    unfold BlindTransportRecord.pairOf
    split
    · exact raises_ok _
    · exact raises_error (htype _)
    · exact raises_error (htype _)
    · exact raises_ok _
    · exact raises_error (hvalue _)
    · split
      · exact raises_ok _
      · exact raises_error (hvalue _)
    · exact raises_ok _
    · exact raises_error (hvalue _)
    · exact raises_error (htype _)
  unfold BlindTransportRecord.dictOfItem
  split
  · exact raises_ok _
  · exact (raises_mapM fun j _ => hpair j).bind fun _ _ => raises_pure _
  · exact raises_ok _
  · exact raises_error (hvalue _)
  · exact raises_error (htype _)

/-- Every exception of the record decoder is caught. -/
theorem raises_record_fromWire (limits : ProtocolLimits) (allowUnsigned allowBlank : Bool)
    (payload : List (String × Json)) :
    Raises IsWireFailure
      (BlindTransportRecord.fromWire H limits allowUnsigned allowBlank payload) := by
  have hprotocol : ∀ {α : Type} (message : String),
      Raises IsWireFailure (throw (.protocolError message) : Except Exn α) :=
    fun message => raises_throw (isWireFailure_protocolError message)
  unfold BlindTransportRecord.fromWire
  dsimp only
  split
  · refine (raises_readVersion H _ _ _).bind fun version _ => ?_
    refine raises_guard (isWireFailure_protocolError _) ?_
    refine raises_guard (isWireFailure_protocolError _) ?_
    split
    · refine raises_guard (isWireFailure_protocolError _) ?_
      refine raises_guard (isWireFailure_protocolError _) ?_
      refine Raises.bind ?_ fun fields _ => ?_
      · refine raises_mapM fun item _ => ?_
        exact (raises_dictOfItem item).bind fun _ _ => raises_sealedField_fromWire H _ _
      split
      · refine ((raises_recordAuthentication_fromWire H _).map some).bind fun _ _ => ?_
        refine (raises_required _ _).bind fun recordId _ => ?_
        refine (raises_record_make _).bind fun record _ => ?_
        exact raises_guard (isWireFailure_protocolError _) (raises_pure _)
      · exact hprotocol _
      · refine (raises_required _ _).bind fun recordId _ => ?_
        refine (raises_record_make _).bind fun record _ => ?_
        exact raises_guard (isWireFailure_protocolError _) (raises_pure _)
      · exact hprotocol _
    · exact hprotocol _
  · exact hprotocol _

end Decoding

end Polymorph
