import PlotGrammar.Chart
import PlotGrammar.Config.Document
import PlotGrammar.Proofs.Acceptance
import PlotGrammar.Proofs.Containment
import PlotGrammar.Proofs.Spanning
import PlotGrammar.Proofs.Isolation
import PlotGrammar.Proofs.Requirements
import PlotGrammar.Proofs.Stat.Dependence
import PlotGrammar.Proofs.Constants
import PlotGrammar.Proofs.Number.Rank
import PlotGrammar.Proofs.Stat.Symmetry
import PlotGrammar.Proofs.Reordering
import PlotGrammar.Proofs.Sources
import PlotGrammar.Proofs.Stat.Bins
import PlotGrammar.Proofs.Stat.Grouping
import PlotGrammar.Proofs.Histogram.Exact
import PlotGrammar.Proofs.Stat.Stacking
import PlotGrammar.Proofs.Stat.Concatenation
import PlotGrammar.Proofs.Stat.ConstantGroup
import PlotGrammar.Proofs.Capture
import PlotGrammar.Proofs.Stat.Repetition
import PlotGrammar.Proofs.Mapping.Override
import PlotGrammar.Proofs.Config.Aesthetics
import PlotGrammar.Proofs.Config.Shorthand
import PlotGrammar.Proofs.Stat.Admission
import PlotGrammar.Proofs.Mapping.Update
import PlotGrammar.Proofs.Properties
import PlotGrammar.Proofs.Stat.Curves
