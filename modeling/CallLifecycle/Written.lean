/-
How calls, settings and the words about them are written as JSON.

The names are those of the written form; every record says here which of its
fields may be left out.
-/
import CallLifecycle.Json.RecordFormat
import CallLifecycle.Settings
import CallLifecycle.Snapshot

namespace CallLifecycle.Written

open Json (Format RecordFormat)

/-- An address, of which either part may be missing. -/
def addressRecord : RecordFormat Address where
  blank := ⟨none, none⟩
  fields := [
    .of "service_id" (.optional .identifier) Address.serviceId
      (fun x a => { a with serviceId := x }) .optional,
    .of "phone_number" (.optional .string) Address.phoneNumber
      (fun x a => { a with phoneNumber := x }) .optional]

/-- An address. -/
def address : Format Address :=
  addressRecord.toFormat

/-- A network route. -/
def routeRecord : RecordFormat Route where
  blank := default
  fields := [
    .of "local_adapter_type" .choice Route.adapter (fun x _ => ⟨x⟩)]

/-- A network route. -/
def route : Format Route :=
  routeRecord.toFormat

/-- Settings, in which whatever is left out is on. -/
def settingsRecord : RecordFormat Settings where
  blank := default
  fields := [
    .of "enforce_transition_table" .flag Settings.enforceTable
      (fun x s => { s with enforceTable := x }) .defaulted,
    .of "panic_on_fatal_defect" .flag Settings.abortOnFatal
      (fun x s => { s with abortOnFatal := x }) .defaulted]

/-- Settings. -/
def settings : Format Settings :=
  settingsRecord.toFormat

/-- A snapshot to start reading from; every field of it but one is overwritten. -/
def blankSnapshot : Snapshot where
  id := .blank
  direction := .outgoing
  threadId := ""
  remoteAddress := ⟨none, none⟩
  sentAt := 0
  adapter := default
  offer := default
  phase := .idle
  isOver := false
  signalingId := none
  audioMuted := false
  localVideo := false
  onHold := false
  remoteVideo := false
  remoteSharing := false
  route := default
  hasRecord := false
  hasDeferred := false
  registered := false
  deregistered := false

/-- A snapshot, which may leave out only the identifier in signaling. -/
def snapshotRecord : RecordFormat Snapshot where
  blank := blankSnapshot
  fields := [
    .of "local_id" .identifier Snapshot.id (fun x s => { s with id := x }),
    .of "direction" .choice Snapshot.direction (fun x s => { s with direction := x }),
    .of "thread_id" .string Snapshot.threadId (fun x s => { s with threadId := x }),
    .of "remote_address" address Snapshot.remoteAddress
      (fun x s => { s with remoteAddress := x }),
    .of "sent_at_timestamp" .word Snapshot.sentAt (fun x s => { s with sentAt := x }),
    .of "adapter_type" .choice Snapshot.adapter (fun x s => { s with adapter := x }),
    .of "offer_media_type" .choice Snapshot.offer (fun x s => { s with offer := x }),
    .of "state" .choice Snapshot.phase (fun x s => { s with phase := x }),
    .of "is_ended" .flag Snapshot.isOver (fun x s => { s with isOver := x }),
    .of "signaling_id" (.optional .word) Snapshot.signalingId
      (fun x s => { s with signalingId := x }) .optional,
    .of "is_audio_muted" .flag Snapshot.audioMuted (fun x s => { s with audioMuted := x }),
    .of "has_local_video" .flag Snapshot.localVideo (fun x s => { s with localVideo := x }),
    .of "is_on_hold" .flag Snapshot.onHold (fun x s => { s with onHold := x }),
    .of "is_remote_video_enabled" .flag Snapshot.remoteVideo
      (fun x s => { s with remoteVideo := x }),
    .of "is_remote_sharing_screen" .flag Snapshot.remoteSharing
      (fun x s => { s with remoteSharing := x }),
    .of "network_route" route Snapshot.route (fun x s => { s with route := x }),
    .of "has_call_record" .flag Snapshot.hasRecord (fun x s => { s with hasRecord := x }),
    .of "has_deferred_acceptance" .flag Snapshot.hasDeferred
      (fun x s => { s with hasDeferred := x }),
    .of "was_reported_to_system" .flag Snapshot.registered (fun x s => { s with registered := x }),
    .of "was_removed_from_system" .flag Snapshot.deregistered
      (fun x s => { s with deregistered := x })]

/-- A snapshot. -/
def snapshot : Format Snapshot :=
  snapshotRecord.toFormat

end CallLifecycle.Written
