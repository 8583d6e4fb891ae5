import FlightPlayground.Interleave
import FlightPlayground.Sequential
import FlightPlayground.Posix
import FlightPlayground.DirectoryMap
import FlightPlayground.Confinement
import FlightPlayground.Parquet
import FlightPlayground.ArrowFs
import FlightPlayground.Flight
import FlightPlayground.DatasetServer
import FlightPlayground.PutFailure
import FlightPlayground.NameRoutes
import FlightPlayground.DoPutClient
import FlightPlayground.DatasetMap
import FlightPlayground.LiveDatasets
import FlightPlayground.StressConfinement
import FlightPlayground.Registration
import FlightPlayground.MetadataRequests
import FlightPlayground.ListingSnapshots
import FlightPlayground.HorizontalScaling
import FlightPlayground.StartUp
import FlightPlayground.RegistrySafety
import FlightPlayground.Locations
import FlightPlayground.StoreRequests
import FlightPlayground.PutRace
import FlightPlayground.ReadDuringPut
import FlightPlayground.RequestsApart
import FlightPlayground.ListingAgreement
import FlightPlayground.ListDuringDrop
import FlightPlayground.Pathlib
import FlightPlayground.PythonServer
import FlightPlayground.PythonMap
import FlightPlayground.PythonConfinement
import FlightPlayground.TwoListings
import FlightPlayground.HellosCommute
import FlightPlayground.StressClients
import FlightPlayground.PythonRequests
import FlightPlayground.ListDuringWrites
import FlightPlayground.PythonApart
import FlightPlayground.Tracing
import FlightPlayground.StorageServiceClient
import FlightPlayground.SimulatedClients
import FlightPlayground.StressTests
import FlightPlayground.ListAndGetAllFlights
import FlightPlayground.AfterCrash
import FlightPlayground.HandlerSpans
import FlightPlayground.RegistrySpans
