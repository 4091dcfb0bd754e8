import GfeDriver.Stinger.Graph
import GfeDriver.Stinger.Binsearch
import GfeDriver.Stinger.Qsort
import GfeDriver.Stinger.Triangles
import GfeDriver.Stinger.Lcc
import GfeDriver.Stinger.Interleaving
import GfeDriver.Stinger.Undirected
import GfeDriver.Configuration.Getline
import GfeDriver.Configuration.Blacklist
import GfeDriver.Configuration.Library
import GfeDriver.Configuration.Database
import GfeDriver.Experiment.Aging2Result
import GfeDriver.Sortledton.Translate
