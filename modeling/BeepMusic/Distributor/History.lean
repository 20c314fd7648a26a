import BeepMusic.Distributor.StateThread
import BeepMusic.Lib.Recent

/-!
`History` of `distributor_history.lua` is a list of the stations that were played last.
A station that is played again moves to the front as it was stored, under whatever name
it is played now.
-/

namespace BeepMusic.Distributor

open Lib List

/-- Stations added one after the other. -/
def addAll (added history : List Station) : List Station :=
  added.foldl (fun history station => addHistory station history) history

theorem map_id_addHistory {station : Station} (hid : station.id.isSome = true)
    (history : List Station) :
    (addHistory station history).map Station.id =
      touch historySize station.id (history.map Station.id) := by
  obtain ⟨name, hname⟩ := Option.isSome_iff_exists.mp hid
  have hfront : ((history.find? fun st => st.id = station.id).getD station).id = station.id := by
    cases hfind : history.find? fun st => st.id = station.id with
    | none => rfl
    | some found =>
      have hfound := find?_some hfind
      exact of_decide_eq_true hfound
  have hadd : addHistory station history =
      (((history.find? fun st => st.id = station.id).getD station) ::
        history.filter fun st => st.id ≠ station.id).take historySize := by
    rw [addHistory, hname]
  rw [hadd, map_take, map_cons, hfront, touch, List.filter_map]
  rfl

theorem map_id_addAll {added : List Station} (hadded : ∀ station ∈ added, station.id.isSome = true)
    (history : List Station) :
    (addAll added history).map Station.id =
      (added.map Station.id).foldl (fun ids id => touch historySize id ids)
        (history.map Station.id) := by
  induction added generalizing history with
  | nil => rfl
  | cons station added ih =>
    have hrest := ih (fun st hst => hadded st (.tail _ hst)) (addHistory station history)
    rw [map_id_addHistory (hadded station (.head _))] at hrest
    exact hrest

/-- The ids in the history are the first ten distinct ones of the ids that were added,
from the newest on, and of those that were there before. -/
theorem addAll_recent (added history : List Station)
    (hadded : ∀ station ∈ added, station.id.isSome = true)
    (hdistinct : (history.map Station.id).Nodup) (hlength : history.length ≤ historySize) :
    (addAll added history).map Station.id =
      (distinct ((added.map Station.id).reverse ++ history.map Station.id)).take historySize := by
  rw [map_id_addAll hadded, foldl_touch hdistinct (by rwa [length_map])]

def stationWith (id : String) : Station := { app := "spotify", id := some id }

/-- Ten more stations push one out, which then comes back. -/
theorem addAll_recent_again :
    (addAll (["b", "c", "d", "e", "f", "g", "h", "i", "j", "k", "a"].map stationWith)
        [stationWith "a"]).map Station.id =
      ["a", "k", "j", "i", "h", "g", "f", "e", "d", "c"].map some := by
  rw [addAll_recent _ _ (by decide) (by decide) (by decide)]
  decide

end BeepMusic.Distributor
