/-
# The table of scan results

`wifi_scan.c`: the networks collected from the radio's reports. Results stay in
a fixed table that a new scan only marks empty, so a text in it may be followed
by the rest of an older one.
-/

import Molewire.Config

namespace Molewire

open ByteBuffer

/-- The C string at the start of a buffer. -/
def cstr (buf : Bytes) : CStr := buf.takeWhile (· ≠ 0)

/-- `WIFI_SCAN_MAX`. -/
def wifiScanMax : Nat := 24

/-- `wifi_scan_entry_t`. -/
structure ScanEntry where
  ssidBuf : Bytes := List.replicate configSsidMax 0
  rssi : Int := 0
  channel : UInt16 := 0
  bssid : Bytes := List.replicate 6 0
  auth : UInt8 := 0
  deriving DecidableEq, Repr

def ScanEntry.ssid (e : ScanEntry) : CStr := cstr e.ssidBuf

/-- `cyw43_ev_scan_result_t`, as far as it is read: the text is the SSID field with what follows
it. -/
structure ScanReport where
  ssid : Bytes
  ssidLen : Nat
  rssi : Int
  channel : UInt16
  bssid : Bytes
  authMode : UInt8
  deriving DecidableEq, Repr

/-- `results`, `result_count` and `scanning`. -/
structure Scan where
  results : Nat → ScanEntry := fun _ => {}
  resultCount : Nat := 0
  scanning : Bool := false

namespace Scan

/-- `fill_entry`. -/
def fillEntry (e : ScanEntry) (r : ScanReport) (len : Nat) : ScanEntry where
  -- only the name and its zero are written; what is behind them is older
  ssidBuf := r.ssid.take len ++ 0 :: e.ssidBuf.drop (len + 1)
  rssi := r.rssi
  channel := r.channel
  bssid := r.bssid.take 6
  auth := r.authMode

def setEntry (s : Scan) (i : Nat) (e : ScanEntry) : Scan :=
  { s with results := Function.update s.results i e }

/-- The entry that already holds the reported SSID. -/
def findEntry (s : Scan) (r : ScanReport) (len : Nat) : Option Nat :=
  (List.range s.resultCount).find? fun i =>
    strncmpEq (s.results i).ssid (cstr r.ssid) configSsidMax ∧
      (s.results i).ssidBuf[len]? = some 0

/-- The first of the weakest entries. -/
def weakest (s : Scan) : Nat :=
  ((List.range s.resultCount).drop 1).foldl
    (fun w i => if (s.results i).rssi < (s.results w).rssi then i else w) 0

/-- `scan_cb`. A network seen twice keeps its strongest report, and a full table its strongest
networks. -/
def scanCb (s : Scan) (r : ScanReport) : Scan :=
  let len := min r.ssidLen 32
  -- the scan-complete marker and hidden networks have no name
  if r.ssidLen = 0 ∨ r.ssid[0]? = some 0 then s
  else
    match s.findEntry r len with
    | some i =>
      if (s.results i).rssi < r.rssi then s.setEntry i (fillEntry (s.results i) r len) else s
    | none =>
      if s.resultCount < wifiScanMax then
        { s.setEntry s.resultCount (fillEntry (s.results s.resultCount) r len) with
          resultCount := s.resultCount + 1 }
      else if (s.results s.weakest).rssi < r.rssi then
        s.setEntry s.weakest (fillEntry (s.results s.weakest) r len)
      else s

/-- `wifi_scan_get`. -/
def get (s : Scan) (i : Nat) : Option ScanEntry :=
  if i < s.resultCount then some (s.results i) else none

/-- The collected results in the order of their numbers. -/
def entries (s : Scan) : List ScanEntry := (List.range s.resultCount).map s.results

/-- `wifi_scan_stop`. -/
def stop (s : Scan) : Scan := { s with scanning := false }

/-- `wifi_scan_poll`: whether the pass has just completed. -/
def poll (s : Scan) (active : Bool) : Bool × Scan :=
  if s.scanning ∧ ¬active then (true, { s with scanning := false }) else (false, s)

end Scan

end Molewire
