import TracePlot.Figure.Curves
import TracePlot.Figure.Gantt
import TracePlot.Log

/-! The figure of a layout, filled from the records of the instances. -/

namespace TracePlot

def PanelSpec.draw (c : Config) (roles : PowerState.Roles) (data : List RunData)
    (spec : PanelSpec) : Panel :=
  match spec.feature with
  | .gantt =>
    match spec.shown.bind fun i => data[i]? with
    | some d => Gantt.panel roles c.window d
    | none => {}
  | .power => Curves.powerPanel data
  | .energy => Curves.energyPanel data
  | .unresponsiveness => Curves.horizonPanel c.window c.horizonBound data
  | .loadInQueue => Curves.queuePanel "Load in queue (nb_res * seconds)" .load none data
  | .jobsInQueue => Curves.queuePanel "Number of jobs in queue" .jobs none data
  | .priorityJobSize =>
    Curves.queuePanel "Number of requested resources of the priority job" .priorityJobSize none
      data
  | .priorityJobWait =>
    Curves.queuePanel "Expected waiting time of the priority job (s)" .priorityJobWait
      c.waitBound data
  | .priorityJobImminence =>
    Curves.queuePanel "Is the priority job expected to start soon?" .priorityJobStartsSoon none
      data

def Layout.draw (l : Layout) (c : Config) (data : List RunData) : Figure where
  panels := l.panels.map (·.draw c l.roles data)
  margins := l.margins
  window := c.window

def Figure.warnings (f : Figure) : List Log :=
  f.emptyTitles.map fun title =>
    ⟨.warn, .panels, "Panel '" ++ title ++ "' has no data in the time window"⟩

end TracePlot
