import RailBus.Station.Basic
import RailBus.Firmware.Transfer
/-! # Firmware updates from the station

A station updates the firmware of the units listening to the bootloader stream: it switches the
bus to boot-stream mode, runs a transfer of the image from a fresh session, and switches back to
block mode whatever the outcome. An empty image is refused before anything is switched. Nothing
else of the station changes: the unit table, discovery and schedule stay as they were.
-/

namespace RailBus

open Firmware

namespace Station

variable {σ : Type}

/-- **Update the firmware of the units** with an image. -/
def updateFirmware (station : Station σ) (image : Image) : Except MasterError Unit × Station σ :=
  if image.isEmpty then (.error (.master "firmware image is empty"), station)
  else
    let (bus, outcome) := transfer (station.bus.setMode .bootStream) image
    (outcome.result, { station with bus := bus.setMode .block })

/-- Update the firmware with the image a HEX file describes, within the chunk budget. -/
def updateFirmwareHex (station : Station σ) (text : String) :
    Except MasterError Unit × Station σ :=
  match Image.ofHex text station.config.maxChunks with
  | .error error => (.error (.hex error), station)
  | .ok image => station.updateFirmware image

end Station

end RailBus
