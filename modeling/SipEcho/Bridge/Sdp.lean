import SipEcho.Bridge.Head

/-!
The session description, osip's `sdp_message_t` and the bus's `Sip__Type__Sdp`, and the
converters between them, which copy every field.

* `sdp_restores`: what was converted for osip converts back to the same description.
-/

namespace SipEcho

open Lib

/-! ### The records of osip -/

/-- `sdp_connection_t`. -/
structure SdpConnection where
  cNettype : Option Str := none
  cAddrtype : Option Str := none
  cAddr : Option Str := none
  cAddrMulticastTtl : Option Str := none
  cAddrMulticastInt : Option Str := none
  deriving DecidableEq, Repr

/-- `sdp_bandwidth_t`. -/
structure SdpBandwidth where
  bBwtype : Option Str := none
  bBandwidth : Option Str := none
  deriving DecidableEq, Repr

/-- `sdp_time_descr_t`. -/
structure SdpTimeDescr where
  tStartTime : Option Str := none
  tStopTime : Option Str := none
  rRepeats : List Str := []
  deriving DecidableEq, Repr

/-- `sdp_key_t`. -/
structure SdpKey where
  kKeytype : Option Str := none
  kKeydata : Option Str := none
  deriving DecidableEq, Repr

/-- `sdp_attribute_t`. -/
structure SdpAttribute where
  aAttField : Option Str := none
  aAttValue : Option Str := none
  deriving DecidableEq, Repr

/-- `sdp_media_t`. -/
structure SdpMedia where
  mMedia : Option Str := none
  mPort : Option Str := none
  mNumberOfPort : Option Str := none
  mProto : Option Str := none
  mPayloads : List Str := []
  iInfo : Option Str := none
  cConnections : List SdpConnection := []
  bBandwidths : List SdpBandwidth := []
  aAttributes : List SdpAttribute := []
  kKey : Option SdpKey := none
  deriving DecidableEq, Repr

/-- `sdp_message_t`. -/
structure SdpMessage where
  vVersion : Option Str := none
  oUsername : Option Str := none
  oSessId : Option Str := none
  oSessVersion : Option Str := none
  oNettype : Option Str := none
  oAddrtype : Option Str := none
  oAddr : Option Str := none
  sName : Option Str := none
  iInfo : Option Str := none
  uUri : Option Str := none
  eEmails : List Str := []
  pPhones : List Str := []
  cConnection : Option SdpConnection := none
  bBandwidths : List SdpBandwidth := []
  tDescrs : List SdpTimeDescr := []
  zAdjustments : Option Str := none
  kKey : Option SdpKey := none
  aAttributes : List SdpAttribute := []
  mMedias : List SdpMedia := []
  deriving DecidableEq, Repr

/-! ### The records of the bus -/

/-- `Sip__Type__Sdp__Connection`. -/
structure SipSdpConnection where
  cNettype : Option Str := none
  cAddrtype : Option Str := none
  cAddr : Option Str := none
  cAddrMulticastTtl : Option Str := none
  cAddrMulticastInt : Option Str := none
  deriving DecidableEq, Repr

/-- `Sip__Type__Sdp__Bandwidth`. -/
structure SipSdpBandwidth where
  bBwtype : Option Str := none
  bBandwidth : Option Str := none
  deriving DecidableEq, Repr

/-- `Sip__Type__Sdp__Time`. -/
structure SipSdpTime where
  tStartTime : Option Str := none
  tStopTime : Option Str := none
  rRepeats : List Str := []
  deriving DecidableEq, Repr

/-- `Sip__Type__Sdp__Key`. -/
structure SipSdpKey where
  kKeytype : Option Str := none
  kKeydata : Option Str := none
  deriving DecidableEq, Repr

/-- `Sip__Type__Sdp__Attribute`. -/
structure SipSdpAttribute where
  aAttField : Option Str := none
  aAttValue : Option Str := none
  deriving DecidableEq, Repr

/-- `Sip__Type__Sdp__Media`. -/
structure SipSdpMedia where
  mMedia : Option Str := none
  mPort : Option Str := none
  mNumberOfPort : Option Str := none
  mProto : Option Str := none
  mPayloads : List Str := []
  iInfo : Option Str := none
  cConnections : List SipSdpConnection := []
  bBandwidths : List SipSdpBandwidth := []
  aAttributes : List SipSdpAttribute := []
  kKey : Option SipSdpKey := none
  deriving DecidableEq, Repr

/-- `Sip__Type__Sdp`. -/
structure SipSdp where
  vVersion : Option Str := none
  oUsername : Option Str := none
  oSessId : Option Str := none
  oSessVersion : Option Str := none
  oNettype : Option Str := none
  oAddrtype : Option Str := none
  oAddr : Option Str := none
  sName : Option Str := none
  iInfo : Option Str := none
  uUri : Option Str := none
  eEmails : List Str := []
  pPhones : List Str := []
  cConnection : Option SipSdpConnection := none
  bBandwidths : List SipSdpBandwidth := []
  tDescrs : List SipSdpTime := []
  zAdjustments : Option Str := none
  kKey : Option SipSdpKey := none
  aAttributes : List SipSdpAttribute := []
  mMedias : List SipSdpMedia := []
  deriving DecidableEq, Repr

/-! ### Converters

`sip__type__sdp__media__proto` and its callers do not ask whether an array was converted; with no
allocation failing every array is. -/

/-- `sip__type__char__proto` on an element of a list. -/
def charProto (q : Str) : Option Str := some q

/-- `sip__type__char__unproto`. -/
def charUnproto (p : Str) : Str := p

/-- `sip__type__sdp__connection__proto`. -/
def sdpConnectionProto (q : SdpConnection) : Option SipSdpConnection :=
  some
    { cAddr := q.cAddr, cAddrtype := q.cAddrtype, cNettype := q.cNettype
      cAddrMulticastInt := q.cAddrMulticastInt, cAddrMulticastTtl := q.cAddrMulticastTtl }

/-- `sip__type__sdp__connection__unproto`. -/
def sdpConnectionUnproto (p : SipSdpConnection) : SdpConnection :=
  { cAddr := p.cAddr, cAddrMulticastInt := p.cAddrMulticastInt
    cAddrMulticastTtl := p.cAddrMulticastTtl, cAddrtype := p.cAddrtype, cNettype := p.cNettype }

/-- `sip__type__sdp__bandwidth__proto`. -/
def sdpBandwidthProto (q : SdpBandwidth) : Option SipSdpBandwidth :=
  some { bBandwidth := q.bBandwidth, bBwtype := q.bBwtype }

/-- `sip__type__sdp__bandwidth__unproto`. -/
def sdpBandwidthUnproto (p : SipSdpBandwidth) : SdpBandwidth :=
  { bBwtype := p.bBwtype, bBandwidth := p.bBandwidth }

/-- `sip__type__sdp__time__proto`. -/
def sdpTimeProto (q : SdpTimeDescr) : Option SipSdpTime := do
  let rRepeats ← arrayProto charProto q.rRepeats
  some { tStartTime := q.tStartTime, tStopTime := q.tStopTime, rRepeats }

/-- `sip__type__sdp__time__unproto`. -/
def sdpTimeUnproto (p : SipSdpTime) : SdpTimeDescr :=
  { tStartTime := p.tStartTime, tStopTime := p.tStopTime
    rRepeats := arrayUnproto [] p.rRepeats charUnproto }

/-- `sip__type__sdp__key__proto`. -/
def sdpKeyProto (q : SdpKey) : Option SipSdpKey :=
  some { kKeydata := q.kKeydata, kKeytype := q.kKeytype }

/-- `sip__type__sdp__key__unproto`. -/
def sdpKeyUnproto (p : SipSdpKey) : SdpKey := { kKeydata := p.kKeydata, kKeytype := p.kKeytype }

/-- `sip__type__sdp__attribute__proto`. -/
def sdpAttributeProto (q : SdpAttribute) : Option SipSdpAttribute :=
  some { aAttField := q.aAttField, aAttValue := q.aAttValue }

/-- `sip__type__sdp__attribute__unproto`. -/
def sdpAttributeUnproto (p : SipSdpAttribute) : SdpAttribute :=
  { aAttField := p.aAttField, aAttValue := p.aAttValue }

/-- `sip__type__sdp__media__proto`. -/
def sdpMediaProto (q : SdpMedia) : Option SipSdpMedia := do
  let mPayloads ← arrayProto charProto q.mPayloads
  let cConnections ← arrayProto sdpConnectionProto q.cConnections
  let bBandwidths ← arrayProto sdpBandwidthProto q.bBandwidths
  let aAttributes ← arrayProto sdpAttributeProto q.aAttributes
  some
    { mMedia := q.mMedia, mPort := q.mPort, mNumberOfPort := q.mNumberOfPort, mProto := q.mProto
      iInfo := q.iInfo, mPayloads, cConnections, bBandwidths, aAttributes
      kKey := q.kKey.bind sdpKeyProto }

/-- `sip__type__sdp__media__unproto`. -/
def sdpMediaUnproto (p : SipSdpMedia) : SdpMedia :=
  { mMedia := p.mMedia, mPort := p.mPort, mNumberOfPort := p.mNumberOfPort, mProto := p.mProto
    iInfo := p.iInfo
    mPayloads := arrayUnproto [] p.mPayloads charUnproto
    cConnections := arrayUnproto [] p.cConnections sdpConnectionUnproto
    bBandwidths := arrayUnproto [] p.bBandwidths sdpBandwidthUnproto
    aAttributes := arrayUnproto [] p.aAttributes sdpAttributeUnproto
    kKey := p.kKey.map sdpKeyUnproto }

/-- `sip__type__sdp__proto`. -/
def sdpProto (q : SdpMessage) : Option SipSdp := do
  let eEmails ← arrayProto charProto q.eEmails
  let pPhones ← arrayProto charProto q.pPhones
  let bBandwidths ← arrayProto sdpBandwidthProto q.bBandwidths
  let tDescrs ← arrayProto sdpTimeProto q.tDescrs
  let aAttributes ← arrayProto sdpAttributeProto q.aAttributes
  let mMedias ← arrayProto sdpMediaProto q.mMedias
  some
    { vVersion := q.vVersion, oUsername := q.oUsername, oSessId := q.oSessId
      oSessVersion := q.oSessVersion, oNettype := q.oNettype, oAddrtype := q.oAddrtype
      oAddr := q.oAddr, sName := q.sName, iInfo := q.iInfo, uUri := q.uUri
      zAdjustments := q.zAdjustments, eEmails, pPhones, bBandwidths, tDescrs, aAttributes, mMedias
      cConnection := q.cConnection.bind sdpConnectionProto
      kKey := q.kKey.bind sdpKeyProto }

/-- `sip__type__sdp__unproto`. -/
def sdpUnproto (p : SipSdp) : SdpMessage :=
  { vVersion := p.vVersion, oUsername := p.oUsername, oSessId := p.oSessId
    oSessVersion := p.oSessVersion, oNettype := p.oNettype, oAddrtype := p.oAddrtype
    oAddr := p.oAddr, sName := p.sName, iInfo := p.iInfo, uUri := p.uUri
    zAdjustments := p.zAdjustments
    cConnection := p.cConnection.map sdpConnectionUnproto
    kKey := p.kKey.map sdpKeyUnproto
    eEmails := arrayUnproto [] p.eEmails charUnproto
    pPhones := arrayUnproto [] p.pPhones charUnproto
    bBandwidths := arrayUnproto [] p.bBandwidths sdpBandwidthUnproto
    tDescrs := arrayUnproto [] p.tDescrs sdpTimeUnproto
    aAttributes := arrayUnproto [] p.aAttributes sdpAttributeUnproto
    mMedias := arrayUnproto [] p.mMedias sdpMediaUnproto }

/-! ### They restore -/

/-- An array of records that are always restored. -/
lemma array_restored {α β : Type} {uncall : β → α} {call : α → Option β}
    (h : Restores (fun _ => True) uncall call) (a : List β) :
    arrayProto call (arrayUnproto [] a uncall) = some a :=
  arrayProto_unproto h fun _ _ => trivial

lemma char_restores : Restores (fun _ => True) charUnproto charProto := fun _ _ => rfl

lemma sdpConnection_restores :
    Restores (fun _ => True) sdpConnectionUnproto sdpConnectionProto := fun _ _ => rfl

lemma sdpBandwidth_restores :
    Restores (fun _ => True) sdpBandwidthUnproto sdpBandwidthProto := fun _ _ => rfl

lemma sdpKey_restores : Restores (fun _ => True) sdpKeyUnproto sdpKeyProto := fun _ _ => rfl

lemma sdpAttribute_restores :
    Restores (fun _ => True) sdpAttributeUnproto sdpAttributeProto := fun _ _ => rfl

lemma sdpTime_restores : Restores (fun _ => True) sdpTimeUnproto sdpTimeProto := by
  intro p _
  simp [sdpTimeProto, sdpTimeUnproto, array_restored char_restores]

lemma sdpMedia_restores : Restores (fun _ => True) sdpMediaUnproto sdpMediaProto := by
  intro p _
  have hkey := sdpKey_restores.option (o := p.kKey) fun _ _ => trivial
  simp [sdpMediaProto, sdpMediaUnproto, array_restored char_restores,
    array_restored sdpConnection_restores, array_restored sdpBandwidth_restores,
    array_restored sdpAttribute_restores, hkey]

/-- **A description converts to osip and back unchanged.** -/
theorem sdp_restores : Restores (fun _ => True) sdpUnproto sdpProto := by
  intro p _
  have hkey := sdpKey_restores.option (o := p.kKey) fun _ _ => trivial
  have hconnection := sdpConnection_restores.option (o := p.cConnection) fun _ _ => trivial
  simp [sdpProto, sdpUnproto, array_restored char_restores, array_restored sdpTime_restores,
    array_restored sdpBandwidth_restores, array_restored sdpAttribute_restores,
    array_restored sdpMedia_restores, hkey, hconnection]

end SipEcho
